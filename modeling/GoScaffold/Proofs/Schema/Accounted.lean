import GoScaffold.Proofs.Schema.Constraints
import GoScaffold.Proofs.Schema.Keys
import GoScaffold.Proofs.Schema.Recased

set_option autoImplicit false

/-! # No key member is lost silently

The members of the declared keys are looked up among all columns of the table, wherever the keys
stand. Those that name columns make up the stored groups, every other one is warned of, and so is a
key that has no member left (`KeyDeclaration.group?`, `KeyDeclaration.warnings`). What remains are the
warnings about unique groups that repeat an earlier one, after all others. -/

namespace GoScaffold

open Grammar (Tree)

namespace KeyDeclaration

/-- The places of the members that name columns, in the order of the members. -/
def places (key : KeyDeclaration) (t : Table) : List Nat := key.members.filterMap t.columnIndex?

/-- The members that name no column. -/
def unknown (key : KeyDeclaration) (t : Table) : List String :=
  key.members.filter fun member => (t.columnIndex? member).isNone

/-- The group that is stored for the key; a key without members that name columns has none. -/
def group? (key : KeyDeclaration) (t : Table) : Option KeyGroup :=
  if key.places t = [] then none else some ⟨key.places t⟩

/-- The warnings for the key: one for each member that names no column, and one more if no member is
left. -/
def warnings (key : KeyDeclaration) (t : Table) : List Warning :=
  (key.unknown t).map (.unknownKeyColumn t.name key.kind)
    ++ if key.places t = [] then [.emptyKeyGroup t.name key.kind] else []

end KeyDeclaration

/-- The groups whose column names are those of an earlier group. -/
def repeats (groups : List (List Column)) : List (List Column) :=
  (groups.zipIdx.filter fun (group, i) =>
    decide (∃ earlier ∈ groups.take i, earlier.map (·.name) = group.map (·.name))).map (·.1)

/-- The groups and the warnings of a table are those that the declared keys account for, and the
warnings about repeated groups come last. -/
structure Table.Accounts (t : Table) (keys : List KeyDeclaration) (warnings : List Warning) : Prop where
  groups : ∀ kind, t.keyGroups kind = (keys.filter (·.kind == kind)).filterMap (·.group? t)
  warnings : warnings = keys.flatMap (·.warnings t)
    ++ (repeats t.keys.unique).map fun group => .duplicateKeyGroup t.name (groupLabel group)

/-! ## Repeated groups -/

theorem repeatedGroups_eq (earlier groups : List (List Column)) :
    repeatedGroups earlier groups
      = ((groups.zipIdx earlier.length).filter fun (group, i) =>
          decide (∃ e ∈ (earlier ++ groups).take i, e.map (·.name) = group.map (·.name))).map (·.1) := by
  induction groups generalizing earlier with
  | nil => rfl
  | cons group rest ih =>
    have hany : earlier.any (sameColumns · group)
        = decide (∃ e ∈ (earlier ++ group :: rest).take earlier.length,
            e.map (·.name) = group.map (·.name)) := by
      rw [List.take_left, Bool.eq_iff_iff, any_sameColumns_iff, List.mem_map, decide_eq_true_iff]
    rw [repeatedGroups, ih, List.zipIdx_cons, List.filter_cons, hany, List.append_assoc,
      List.singleton_append, List.length_append, List.length_singleton]
    split <;> rfl

theorem Keys.duplicates_eq_repeats (k : Keys) : k.duplicates = repeats k.unique := by
  rw [duplicates, repeatedGroups_eq]
  rfl

/-! ## Filling -/

section

variable {text : List Char} {t t' : Table}

theorem Table.columnIndex?_of_columns (h : t.columns = t'.columns) : t.columnIndex? = t'.columnIndex? := by
  funext name
  rw [columnIndex?, columnIndex?, h]

theorem KeyDeclaration.group?_congr (h : t.columns = t'.columns) (key : KeyDeclaration) :
    key.group? t = key.group? t' := by
  rw [group?, group?, places, places, Table.columnIndex?_of_columns h]

theorem KeyDeclaration.warnings_congr (h : t.columns = t'.columns) (hname : t.name = t'.name)
    (key : KeyDeclaration) : key.warnings t = key.warnings t' := by
  rw [warnings, warnings, unknown, unknown, places, places, Table.columnIndex?_of_columns h, hname]

theorem resolveMembers_warnings (t : Table) (kind : KeyKind) (names : List String) :
    (resolveMembers t kind names).2
      = (names.filter fun name => (t.columnIndex? name).isNone).map
          (.unknownKeyColumn t.name kind) := by
  induction names with
  | nil => rfl
  | cons name names ih =>
    rw [resolveMembers]
    cases hplace : t.columnIndex? name with
    | none => simp [hplace, ih]
    | some place => simp [hplace, ih]

theorem fillKey_warnings (text : List Char) (t : Table) (key : KeyKind × List Span) :
    (fillKey text t key).2 = (KeyDeclaration.ofOutline text key).warnings t := by
  have hplaces : (resolveMembers t key.1 (key.2.map (nameAt text))).1
      = (KeyDeclaration.ofOutline text key).places t := resolveMembers_places ..
  rw [fillKey, KeyDeclaration.warnings, ← hplaces]
  simp only [List.isEmpty_iff, KeyDeclaration.ofOutline, KeyDeclaration.unknown,
    ← resolveMembers_warnings]
  split
  · rfl
  · rw [List.append_nil]

theorem fillKeys_warnings (text : List Char) (t : Table) (keys : List (KeyKind × List Span)) :
    (fillKeys text t keys).2
      = (keys.map (KeyDeclaration.ofOutline text)).flatMap fun key => key.warnings t := by
  induction keys generalizing t with
  | nil => rfl
  | cons key keys ih =>
    -- The table that later keys are looked up in has more groups, but the same columns and name.
    have hsame (later : KeyDeclaration) : later.warnings (fillKey text t key).1 = later.warnings t := by
      rw [fillKey_table]
      exact later.warnings_congr (columns_addKeyGroups ..) (by rw [Table.addKeyGroups_eq])
    rw [fillKeys]
    simp only [ih, hsame, fillKey_warnings, List.map_cons, List.flatMap_cons]

theorem groupsAt_eq (text : List Char) (t : Table) (keys : List (KeyKind × List Span)) :
    groupsAt text t keys
      = (keys.map (KeyDeclaration.ofOutline text)).filterMap fun key =>
          (key.group? t).map (key.kind, ·) := by
  rw [groupsAt, List.filterMap_map]
  congr 1
  funext key
  have hplaces : (KeyDeclaration.ofOutline text key).places t
      = key.2.filterMap fun s => t.columnIndex? (nameAt text s) := List.filterMap_map ..
  simp only [Function.comp_apply, KeyDeclaration.group?, hplaces]
  cases key.2.filterMap fun s => t.columnIndex? (nameAt text s) <;> rfl

theorem groupsOf_filterMap (kind : KeyKind) (keys : List KeyDeclaration) (t : Table) :
    groupsOf kind (keys.filterMap fun key => (key.group? t).map (key.kind, ·))
      = (keys.filter (·.kind == kind)).filterMap (·.group? t) := by
  induction keys with
  | nil => rfl
  | cons key keys ih =>
    rw [groupsOf] at ih ⊢
    rw [List.filterMap_cons, List.filter_cons]
    cases hgroup : key.group? t <;> by_cases hkind : key.kind = kind <;> simp [hgroup, hkind, ih]

/-- The columns of a filled tree are those of the tree, each filled by itself. -/
theorem Outline.columns_fill_ofTree (tree : Tree) (text : List Char) :
    ((ofTree tree).fill text).1.columns = (tree.children.filter (·.rule == .columnDef)).map
      fun column => (ColumnOutline.ofTree column).fill text := by
  rw [fill, fillKeys_table, columns_addKeyGroups, ofTree, columns_foldl, List.nil_append, List.map_map]
  rfl

/-- The groups of a filled outline, and its warnings once the repeated groups are known, are accounted
for by the keys of the outline. -/
theorem Outline.accounts_fill (o : Outline) (text : List Char) :
    (o.fill text).1.Accounts (o.keys.map (KeyDeclaration.ofOutline text))
      ((o.fill text).2 ++ duplicateWarnings (o.fill text).1) := by
  -- The keys are looked up in the table without keys, which has the same columns and name.
  obtain ⟨bare, hfill, hnone⟩ : ∃ bare : Table, o.fill text = fillKeys text bare o.keys
      ∧ ∀ kind, bare.keyGroups kind = [] := ⟨_, rfl, fun kind => by cases kind <;> rfl⟩
  have htable : (o.fill text).1 = bare.addKeyGroups (groupsAt text bare o.keys) := by
    rw [hfill, fillKeys_table]
  have hcolumns : bare.columns = (o.fill text).1.columns := by
    rw [htable, columns_addKeyGroups]
  have hname : bare.name = (o.fill text).1.name := by
    rw [htable, Table.addKeyGroups_eq]
  constructor
  · intro kind
    have hgroups : (o.fill text).1.keyGroups kind
        = bare.keyGroups kind ++ groupsOf kind (groupsAt text bare o.keys) := by
      rw [htable, Table.addKeyGroups_eq]
      cases kind <;> rfl
    rw [hgroups, hnone, List.nil_append, groupsAt_eq, groupsOf_filterMap]
    simp only [KeyDeclaration.group?_congr hcolumns]
  · rw [duplicateWarnings, Keys.duplicates_eq_repeats, hfill, fillKeys_warnings, ← hfill]
    simp only [KeyDeclaration.warnings_congr hcolumns hname]

end

/-! ## Declarations -/

/-- The parts of a declaration that is read declare keys, and all that is read follows from them and
from the columns. -/
theorem exists_outline {s : String} {t : Table} {warnings : List Warning}
    (h : readTable s = .ok (some (t, warnings))) :
    ∃ tree keys, declarationTree s.toList = .ok (some tree)
      ∧ DeclaredKeys s.toList tree.children keys
      ∧ (Outline.ofTree tree).keys.map (KeyDeclaration.ofOutline s.toList) = keys
      ∧ t = ((Outline.ofTree tree).fill s.toList).1
      ∧ warnings = ((Outline.ofTree tree).fill s.toList).2 ++ duplicateWarnings t := by
  obtain ⟨-, tree, htree, rfl, rfl⟩ := readTable_eq_ok_some.1 h
  obtain ⟨keys, hkeys⟩ := exists_declaredKeys fun part hpart hrule =>
    Grammar.Ddl.yields_tableConstraint (yields_declarationTree htree) hpart hrule
  exact ⟨tree, keys, htree, hkeys, Outline.keys_foldl hkeys {}, rfl, rfl⟩

/-- A declaration that is read declares columns and keys. The keys are looked up among all columns,
and they account for the groups and the warnings of the table. -/
theorem keys_accounted {s : String} {t : Table} {warnings : List Warning}
    (h : readTable s = .ok (some (t, warnings))) :
    ∃ tree keys, declarationTree s.toList = .ok (some tree)
      ∧ DeclaredKeys s.toList tree.children keys
      ∧ t.columns = (tree.children.filter (·.rule == .columnDef)).map
          (fun column => (ColumnOutline.ofTree column).fill s.toList)
      ∧ t.Accounts keys warnings := by
  obtain ⟨tree, keys, htree, hkeys, houtline, rfl, rfl⟩ := exists_outline h
  exact ⟨tree, keys, htree, hkeys, Outline.columns_fill_ofTree .., houtline ▸ Outline.accounts_fill ..⟩

/-- A declaration with keys before and between its columns, members that name no column, a primary
key that repeats another one, and a constraint that declares no key. -/
def interleaved : String :=
  "CREATE TABLE t (KEY k (b, x), a INT PRIMARY KEY, CONSTRAINT c PRIMARY KEY (A), UNIQUE (y), b INT, "
    ++ "CHECK (b > 0))"

/-- The table of that declaration. -/
def interleavedTable : Table where
  name := "t"
  columns := [{ name := "a", declaredType := "INT", flags := { primary := true } },
    { name := "b", declaredType := "INT" }]
  primaryKeys := [⟨[0]⟩]
  indexKeys := [⟨[1]⟩]

theorem keys_accounted_interleaved :
    readTable interleaved = .ok (some (interleavedTable,
        [.unknownKeyColumn "t" .index "x", .unknownKeyColumn "t" .unique "y",
          .emptyKeyGroup "t" .unique, .duplicateKeyGroup "t" "a"]))
      ∧ ∃ tree keys, declarationTree interleaved.toList = .ok (some tree)
        ∧ DeclaredKeys interleaved.toList tree.children keys
        ∧ interleavedTable.columns = (tree.children.filter (·.rule == .columnDef)).map
            (fun column => (ColumnOutline.ofTree column).fill interleaved.toList)
        ∧ interleavedTable.Accounts keys
            [.unknownKeyColumn "t" .index "x", .unknownKeyColumn "t" .unique "y",
              .emptyKeyGroup "t" .unique, .duplicateKeyGroup "t" "a"] := by
  have hread : readTable interleaved = .ok (some (interleavedTable,
      [.unknownKeyColumn "t" .index "x", .unknownKeyColumn "t" .unique "y",
        .emptyKeyGroup "t" .unique, .duplicateKeyGroup "t" "a"])) :=
    eq_ok_of_toOption (by decide +kernel)
  exact ⟨hread, keys_accounted hread⟩

end GoScaffold
