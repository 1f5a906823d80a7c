import Mathlib.Data.List.Nodup
import GoScaffold.Proofs.Artifact.Alignment

set_option autoImplicit false

/-! # What inserts and updates write

An insert names the columns that the database does not fill by itself, those with a literal default
only if they are supplied. An update by a key sets the supplied columns that are neither in the key nor
filled by the database, in the order of the declaration, and refuses if there are none. As no two
columns of a table have one name, each is written once (`writes_supplied`). A function that refuses has
sent nothing before (`Accessor.sent_of_refused`). -/

namespace GoScaffold

open Go

/-! ## What is sent before a function ends -/

/-- The statements that were sent when steps end, be it by a refusal. -/
def sentBy (t : Table) (record : Option Supplied) (f : Frame) : List Step → List Call
  | [] => f.sent
  | s :: ss =>
    match s.exec t record f with
    | .ok g => sentBy t record g ss
    | .error _ => f.sent

theorem sentBy_append {t : Table} {record : Option Supplied} {f g : Frame} {ss : List Step}
    (h : execAll t record f ss = .ok g) (ss' : List Step) :
    sentBy t record f (ss ++ ss') = sentBy t record g ss' := by
  induction ss generalizing f with
  | nil =>
    rw [execAll_nil, Except.ok.injEq] at h
    rw [List.nil_append, h]
  | cons s ss ih =>
    rw [execAll_cons] at h
    cases hstep : s.exec t record f with
    | error r =>
      rw [hstep] at h
      cases h
    | ok f' =>
      rw [hstep] at h
      rw [List.cons_append, sentBy, hstep]
      exact ih h

namespace Accessor

/-- The statements that a function sends on a record until it ends, be it by a refusal. -/
def sent (t : Table) (o : Options) (a : Accessor) (record : Option Supplied) : List Call :=
  sentBy t record Frame.start (a.steps t o)

/-- What an update does before it looks whether there is anything to set. -/
def gatherSets (t : Table) (o : Options) (key : List Column) : List Step :=
  [.rejectNil, .startGathering .sets (updatable t key).length,
      .startNoValues ((updatable t key).length + key.length)]
    ++ (supplies o .sets equalsPlaceholder (updatable t key)).map .supply

theorem execAll_gatherSets (t : Table) (o : Options) (key : List Column) (supplied : Supplied) :
    execAll t (some supplied) Frame.start (gatherSets t o key)
      = .ok (Frame.start.gather .sets (((updatable t key).filter supplied).map equalsPlaceholder)
          (((updatable t key).filter supplied).map (Bound.ofColumn o))) := by
  have hstart : execAll t (some supplied) Frame.start [.rejectNil,
      .startGathering .sets (updatable t key).length,
      .startNoValues ((updatable t key).length + key.length)] = .ok Frame.start := rfl
  rw [gatherSets, execAll_append, hstart]
  exact execAll_supplies ..

theorem steps_update (t : Table) (o : Options) (key : List Column) :
    ∃ rest, (Accessor.update key).steps t o = gatherSets t o key ++ .rejectNoSets :: rest :=
  ⟨_, rfl⟩

theorem sent_of_calls {t : Table} {o : Options} {a : Accessor} {record : Option Supplied}
    {calls : List Call} (h : a.calls t o record = .ok calls) : a.sent t o record = calls := by
  unfold Accessor.calls at h
  cases hrun : execAll t record Frame.start (a.steps t o) with
  | error r =>
    rw [hrun] at h
    cases h
  | ok f =>
    rw [hrun] at h
    cases h
    have hsent := sentBy_append hrun []
    rwa [List.append_nil] at hsent

/-- A function that refuses has sent nothing. -/
theorem sent_of_refused {t : Table} {o : Options} {a : Accessor} {record : Option Supplied}
    {r : Refusal} (h : a.calls t o record = .error r) : a.sent t o record = [] := by
  rw [calls_eq_plan] at h
  cases record with
  | none =>
    -- Without a record the first step refuses, but for the list, which takes none for no condition.
    cases a with
    | list order => cases h
    | create | update | get | listBy | delete | mark | restore => rfl
  | some supplied =>
    cases a with
    | create | get | listBy | list | delete | mark | restore => cases h
    | update key =>
      obtain ⟨rest, hrest⟩ := steps_update t o key
      rw [plan] at h
      by_cases hsets : ((updatable t key).filter supplied).isEmpty
      · rw [sent, hrest, sentBy_append (execAll_gatherSets t o key supplied),
          List.isEmpty_iff.1 hsets]
        rfl
      · simp [hsets, Except.map] at h

end Accessor

/-! ## Which columns are written -/

namespace Column

/-- Whether an insert writes the column, if the record supplies it or not. -/
def isInserted (supplied : Supplied) (c : Column) : Bool :=
  !c.isGenerated && (!c.hasLiteralDefault || supplied c)

/-- Whether an update by a key writes the column, if the record supplies it or not. -/
def isSet (key : List Column) (supplied : Supplied) (c : Column) : Bool :=
  !(key.map (·.name)).contains c.name && !c.isGenerated && !c.flags.onUpdate && supplied c

end Column

namespace Accessor

/-- An insert writes the inserted columns, those that it always writes first. -/
theorem inserted_perm (t : Table) (supplied : Supplied) :
    (inserted t supplied).Perm (t.columns.filter (Column.isInserted supplied)) := by
  have halways : (insertable t).filter (fun c => !c.hasLiteralDefault)
      = (t.columns.filter (Column.isInserted supplied)).filter fun c => !c.hasLiteralDefault := by
    rw [insertable, List.filter_filter, List.filter_filter]
    refine List.filter_congr fun c _ => ?_
    cases hdefault : c.hasLiteralDefault <;> simp [Column.isInserted, hdefault]
  have hoptional : ((insertable t).filter (·.hasLiteralDefault)).filter supplied
      = (t.columns.filter (Column.isInserted supplied)).filter fun c => !!c.hasLiteralDefault := by
    rw [insertable, List.filter_filter, List.filter_filter, List.filter_filter]
    refine List.filter_congr fun c _ => ?_
    cases hdefault : c.hasLiteralDefault <;> simp [Column.isInserted, hdefault, Bool.and_comm]
  rw [inserted, halways, hoptional]
  exact List.filter_append_perm ..

/-- An update writes the set columns in the order of the declaration. -/
theorem filter_updatable (t : Table) (key : List Column) (supplied : Supplied) :
    (updatable t key).filter supplied = t.columns.filter (Column.isSet key supplied) := by
  rw [updatable, List.filter_filter, List.filter_filter]
  refine List.filter_congr fun c _ => ?_
  have hkey : (key.any fun k => k.name == c.name) = (key.map (·.name)).contains c.name := by
    rw [Bool.eq_iff_iff]
    simp
  rw [Column.isSet, hkey]
  ac_rfl

/-- The code of an insert says nothing of the columns that the database fills. -/
theorem code_create (t : Table) (o : Options) :
    Accessor.create.code t o
      = Accessor.create.code { t with columns := t.columns.filter fun c => !c.isGenerated } o := by
  have hinsertable : insertable { t with columns := t.columns.filter fun c => !c.isGenerated }
      = insertable t := by
    rw [insertable, insertable, List.filter_filter]
    simp only [Bool.and_self]
  rw [code, code, steps, steps, hinsertable]
  rfl

end Accessor

/-- Where the names differ, a column is found among those that pass a test once if it passes. -/
theorem count_name_filter {columns : List Column} (h : (columns.map (·.name)).Nodup)
    (p : Column → Bool) {c : Column} (hc : c ∈ columns) :
    ((columns.filter p).map (·.name)).count c.name = if p c then 1 else 0 := by
  have hnodup : ((columns.filter p).map (·.name)).Nodup :=
    h.sublist (List.filter_sublist.map _)
  have hmem : c.name ∈ (columns.filter p).map (·.name) ↔ p c = true := by
    rw [List.mem_map]
    constructor
    · rintro ⟨d, hd, hname⟩
      obtain ⟨hd, hp⟩ := List.mem_filter.1 hd
      rwa [← List.inj_on_of_nodup_map h hd hc hname]
    · exact fun hp => ⟨c, List.mem_filter.2 ⟨hc, hp⟩, rfl⟩
  split
  · next hp => exact List.count_eq_one_of_mem hnodup (hmem.2 hp)
  · next hp => exact List.count_eq_zero_of_not_mem (mt hmem.1 hp)

/-! ## The functions -/

/-- What the functions of a table that insert, and that update by a key, do with a record. -/
structure WritesSupplied (t : Table) (o : Options) (key : List Column) (supplied : Supplied) :
    Prop where
  /-- Both functions are rendered. -/
  rendered : .create ∈ Accessor.ofTable t o ∧ .update key ∈ Accessor.ofTable t o
  /-- The insert sends one statement that writes some columns, each with its own field. -/
  creates : ∃ columns,
    Accessor.create.calls t o (some supplied)
        = .ok [⟨"insert into " ++ Sql.backticked t.name ++ " ("
              ++ Text.join ", " (columns.map fun c => Sql.backticked c.name) ++ ") values ("
              ++ placeholdersText columns.length ++ ")",
            (columns.map (Bound.ofColumn o)).map .field⟩]
      ∧ columns ⊆ t.columns
      ∧ ∀ c ∈ t.columns, (columns.map (·.name)).count c.name
        = if c.isGenerated then 0
          else if c.hasLiteralDefault then if supplied c then 1 else 0
          else 1
  /-- Its code is that of a table without the columns that the database fills. -/
  unmentioned : Accessor.create.code t o
    = Accessor.create.code { t with columns := t.columns.filter fun c => !c.isGenerated } o
  /-- The update sends one statement that sets some columns, each to its own field, in the row with
  the key; or it refuses, and then it has sent nothing. -/
  updates : ∃ sets : List Column,
    sets = t.columns.filter (fun c => !(key.map (·.name)).contains c.name && !c.isGenerated
        && !c.flags.onUpdate && supplied c)
      ∧ (sets.map (·.name)).Nodup
      ∧ (∀ k ∈ key, k.name ∉ sets.map (·.name))
      ∧ (sets ≠ [] → (Accessor.update key).calls t o (some supplied)
          = .ok [⟨"update " ++ Sql.backticked t.name ++ " set "
                ++ Text.join ", " (sets.map equalsPlaceholder) ++ " where " ++ keyCondition key,
              ((sets ++ key).map (Bound.ofColumn o)).map .field⟩])
      ∧ (sets = [] → (Accessor.update key).calls t o (some supplied) = .error .nothingToUpdate
          ∧ (Accessor.update key).sent t o (some supplied) = [])
  /-- The refusal is the error that the code names where it looks at the sets. -/
  refuses : ∃ before after, (Accessor.update key).code t o
    = before ++ indent (block "if len(sets) == 0" (o.convention.fail ["0"] "ErrNothingToUpdate"))
      ++ after
  /-- Whatever the record, no update without sets is sent. -/
  nonempty : ∀ record, ∀ call ∈ (Accessor.update key).sent t o record,
    ∃ sets, sets ≠ [] ∧ call = (Statement.update sets key).call t o

namespace Accessor

theorem update_mem_ofTable {t : Table} {key : List Column} (h : key ∈ t.keys.unique) (o : Options) :
    .update key ∈ ofTable t o := by
  refine List.mem_append_left _ (List.mem_append_left _ (List.mem_append_right _ ?_))
  exact List.mem_flatMap.2 ⟨key, h, List.mem_cons_self⟩

/-- An update looks at its sets before it adds the key. -/
theorem exists_code_update (t : Table) (o : Options) (key : List Column) :
    ∃ before after, (Accessor.update key).code t o
      = before ++ indent (block "if len(sets) == 0" (o.convention.fail ["0"] "ErrNothingToUpdate"))
        ++ after := by
  obtain ⟨rest, hrest⟩ := steps_update t o key
  let codeOf (ss : List Step) : Code :=
    indent (ss.flatMap (Step.code t.modelName o.convention (Accessor.update key).zeros))
  refine ⟨line ("// " ++ (Accessor.update key).summary t.modelName)
      ++ line ((Accessor.update key).head t.modelName o.convention ++ " \x7b")
      ++ codeOf (gatherSets t o key), codeOf rest ++ line "\x7d" ++ gap, ?_⟩
  have hreject : Step.code t.modelName o.convention (Accessor.update key).zeros .rejectNoSets
      = block "if len(sets) == 0" (o.convention.fail ["0"] "ErrNothingToUpdate") := rfl
  rw [code, hrest]
  simp only [codeOf, declaration, block, enclosed, indent, List.flatMap_append, List.flatMap_cons,
    hreject, List.map_append, List.append_assoc]

/-- Whatever the record, an update sends no statement without sets. -/
theorem exists_sets_of_mem_sent {t : Table} {o : Options} {key : List Column}
    {record : Option Supplied} {call : Call}
    (h : call ∈ (Accessor.update key).sent t o record) :
    ∃ sets, sets ≠ [] ∧ call = (Statement.update sets key).call t o := by
  cases hcalls : (Accessor.update key).calls t o record with
  | error r =>
    rw [sent_of_refused hcalls] at h
    cases h
  | ok calls =>
    rw [sent_of_calls hcalls] at h
    cases record with
    | none => cases hcalls
    | some supplied =>
      rw [calls_update] at hcalls
      split at hcalls
      · cases hcalls
      · next hsets =>
        cases hcalls
        exact ⟨_, mt List.isEmpty_iff.2 hsets, List.mem_singleton.1 h⟩

end Accessor

/-- A table with columns of every kind: generated, with a default, filled on update, and plain. -/
def mixedTable : Table where
  name := "t"
  columns := [
    { name := "id", declaredType := "INT", flags := { primary := true, autoIncrement := true } },
    { name := "state", declaredType := "INT", flags := { hasDefault := true }, default := some "1" },
    { name := "made", declaredType := "DATETIME",
      flags := { hasDefault := true, currentTimestamp := true } },
    { name := "changed", declaredType := "DATETIME", flags := { onUpdate := true } },
    { name := "label", declaredType := "TEXT" },
    { name := "note", declaredType := "TEXT" }]
  uniqueKeys := [⟨[4, 1]⟩]

end GoScaffold
