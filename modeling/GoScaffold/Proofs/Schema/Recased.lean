import Mathlib.Data.List.Forall2
import GoScaffold.Proofs.Schema.Reading
import GoScaffold.Proofs.Sql.Recased
import GoScaffold.Schema.Basic

set_option autoImplicit false

/-! # Declarations that differ in case

Declarations are told apart by their copies in capitals, so statements that are spelled alike have
one parse tree and one outline. Filling the outline takes the words from each statement itself: they
come with the case that is written there, and agree up to case (`parseTable_recased`). Keys name
their columns without regard to case, so they end up on the same places. -/

namespace GoScaffold

open Text

/-! ## Parentheses -/

theorem balanced_raise (depth : Nat) (cs : List Char) :
    balanced depth (raise cs) = balanced depth cs := by
  induction cs generalizing depth with
  | nil => rfl
  | cons c cs ih =>
    simp only [raise_cons, balanced, toUpper_eq_iff (d := '(') rfl, toUpper_eq_iff (d := ')') rfl, ih]

theorem raise_stripParens (cs : List Char) : raise (stripParens cs) = stripParens (raise cs) := by
  unfold stripParens
  rw [between?_raise rfl rfl]
  cases between? '(' ')' cs with
  | none => rfl
  | some inner =>
    simp only [Option.map_some, balanced_raise]
    split
    · exact raise_trimBlank inner
    · rfl

/-! ## Names -/

/-- Two names that are the same up to case, each being what its own text spells at one place of the
two. -/
def SpelledAlike (text text' : List Char) (name name' : String) : Prop :=
  sameLetters name name' = true ∧ ∃ before w after before' w' after',
    text = before ++ (w ++ after) ∧ text' = before' ++ (w' ++ after')
      ∧ raise before = raise before' ∧ raise w = raise w' ∧ raise after = raise after'
      ∧ name = String.ofList (Sql.unquoteIdentifier w)
      ∧ name' = String.ofList (Sql.unquoteIdentifier w')

/-- Whether a column has a name does not depend on the case of either. -/
theorem Column.isNamed_congr {c c' : Column} {name name' : String}
    (hc : sameLetters c.name c'.name = true) (hname : sameLetters name name' = true) :
    c.isNamed name = c'.isNamed name' := by
  have hquote (d : Char) : (d.toUpper == '`') = (d == '`') := by
    rw [Bool.eq_iff_iff, beq_iff_eq, beq_iff_eq, toUpper_eq_iff rfl]
  rw [sameLetters_iff] at hc hname
  unfold isNamed sameLetters
  rw [toList_onChars, toList_onChars, raise_trimWhere hquote, raise_trimWhere hquote,
    raise_trimBlank, raise_trimBlank, hc, hname]

theorem findIdx?_isNamed {cs cs' : List Column} {name name' : String}
    (hcs : List.Forall₂ (fun c c' => sameLetters c.name c'.name = true) cs cs')
    (hname : sameLetters name name' = true) :
    cs.findIdx? (·.isNamed name) = cs'.findIdx? (·.isNamed name') := by
  induction hcs with
  | nil => rw [List.findIdx?_nil, List.findIdx?_nil]
  | cons hc hcs ih =>
    rw [List.findIdx?_cons, List.findIdx?_cons, Column.isNamed_congr hc hname, ih]

theorem Table.columnIndex?_congr {t t' : Table} {name name' : String}
    (ht : List.Forall₂ (fun c c' => sameLetters c.name c'.name = true) t.columns t'.columns)
    (hname : sameLetters name name' = true) : t.columnIndex? name = t'.columnIndex? name' :=
  findIdx?_isNamed ht hname

/-! ## Keys -/

/-- The key groups that an outline's keys make: the places of the members that name columns, where
there are any. -/
def groupsAt (text : List Char) (t : Table) (keys : List (KeyKind × List Span)) :
    List (KeyKind × KeyGroup) :=
  keys.filterMap fun key =>
    match key.2.filterMap fun s => t.columnIndex? (nameAt text s) with
    | [] => none
    | place :: places => some (key.1, ⟨place :: places⟩)

theorem resolveMembers_places (t : Table) (kind : KeyKind) (names : List String) :
    (resolveMembers t kind names).1 = names.filterMap t.columnIndex? := by
  induction names with
  | nil => rfl
  | cons name names ih =>
    rw [resolveMembers, List.filterMap_cons, ← ih]
    cases t.columnIndex? name <;> rfl

theorem columns_addKeyGroups (t : Table) (groups : List (KeyKind × KeyGroup)) :
    (t.addKeyGroups groups).columns = t.columns := by
  rw [Table.addKeyGroups_eq]

theorem groupsAt_congr_columns {text : List Char} {t t' : Table}
    {keys : List (KeyKind × List Span)} (h : t.columns = t'.columns) :
    groupsAt text t keys = groupsAt text t' keys := by
  have hindex : t.columnIndex? = t'.columnIndex? := by
    funext name
    rw [Table.columnIndex?, Table.columnIndex?, h]
  rw [groupsAt, groupsAt, hindex]

theorem fillKey_table (text : List Char) (t : Table) (key : KeyKind × List Span) :
    (fillKey text t key).1 = t.addKeyGroups (groupsAt text t [key]) := by
  have hplaces : (resolveMembers t key.1 (key.2.map (nameAt text))).1
      = key.2.filterMap fun s => t.columnIndex? (nameAt text s) := by
    rw [resolveMembers_places, List.filterMap_map]
    rfl
  simp only [fillKey, hplaces, groupsAt, List.filterMap_cons, List.filterMap_nil]
  cases key.2.filterMap fun s => t.columnIndex? (nameAt text s) <;> rfl

/-- Filling in keys only adds key groups. -/
theorem fillKeys_table (text : List Char) (t : Table) (keys : List (KeyKind × List Span)) :
    (fillKeys text t keys).1 = t.addKeyGroups (groupsAt text t keys) := by
  induction keys generalizing t with
  | nil => rfl
  | cons key keys ih =>
    have hgroups : groupsAt text t (key :: keys)
        = groupsAt text t [key] ++ groupsAt text t keys := by
      rw [groupsAt, groupsAt, groupsAt, ← List.filterMap_append]
      rfl
    have hcolumns := columns_addKeyGroups t (groupsAt text t [key])
    rw [fillKeys]
    simp only
    rw [ih, fillKey_table, groupsAt_congr_columns hcolumns, hgroups, Table.addKeyGroups,
      Table.addKeyGroups, Table.addKeyGroups, List.foldl_append]

/-! ## Statements that are spelled alike -/

/-- Columns of two statements that are spelled alike: they differ in the case of the name and of the
default, and in their comments. -/
structure Column.Recased (text text' : List Char) (c c' : Column) : Prop where
  name : SpelledAlike text text' c.name c'.name
  declaredType : c.declaredType = c'.declaredType
  flags : c.flags = c'.flags
  comment : c.comment.isSome = c'.comment.isSome
  default : Option.Rel (fun d d' => sameLetters d d' = true) c.default c'.default

/-- Tables of two statements that are spelled alike: as many columns in the same order, and the same
key groups. -/
structure Table.Recased (text text' : List Char) (t t' : Table) : Prop where
  name : SpelledAlike text text' t.name t'.name
  columns : List.Forall₂ (Column.Recased text text') t.columns t'.columns
  comment : t.comment.isSome = t'.comment.isSome
  primaryKeys : t.primaryKeys = t'.primaryKeys
  uniqueKeys : t.uniqueKeys = t'.uniqueKeys
  indexKeys : t.indexKeys = t'.indexKeys

section

variable {text text' : List Char}

theorem spelledAlike_nameAt (h : raise text = raise text') (s : Span) :
    SpelledAlike text text' (nameAt text s) (nameAt text' s) := by
  have hslice : raise (s.slice text) = raise (s.slice text') := by
    rw [Span.raise_slice, Span.raise_slice, h]
  obtain ⟨before, after, before', after', htext, htext', hbefore, hafter⟩ := s.exists_slice h
  refine ⟨?_, before, s.slice text, after, before', s.slice text', after', htext, htext', hbefore,
    hslice, hafter, rfl, rfl⟩
  rw [sameLetters_iff, nameAt, nameAt, String.toList_ofList, String.toList_ofList,
    Sql.raise_unquoteIdentifier, Sql.raise_unquoteIdentifier, hslice]

/-- A name that the outline has no place for is empty in both tables. -/
theorem spelledAlike_getD (h : raise text = raise text') (s : Option Span) :
    SpelledAlike text text' ((s.map (nameAt text)).getD "") ((s.map (nameAt text')).getD "") := by
  cases s with
  | none => exact ⟨rfl, [], [], text, [], [], text', rfl, rfl, rfl, rfl, h, rfl, rfl⟩
  | some s => exact spelledAlike_nameAt h s

theorem ColumnOutline.recased_fill (h : raise text = raise text') (o : ColumnOutline) :
    Column.Recased text text' (o.fill text) (o.fill text') where
  name := spelledAlike_getD h o.name
  declaredType := by
    unfold ColumnOutline.fill
    cases o.declaredType with
    | none => rfl
    | some s =>
      simp only [Option.map_some, Option.getD_some]
      rw [Span.raise_slice, Span.raise_slice, h]
  flags := rfl
  comment := by
    unfold ColumnOutline.fill
    cases o.comment <;> rfl
  default := by
    unfold ColumnOutline.fill
    cases o.default with
    | none => exact Option.Rel.none
    | some s =>
      refine Option.Rel.some ?_
      rw [sameLetters_iff, String.toList_ofList, String.toList_ofList, raise_stripParens,
        raise_stripParens, raise_trimBlank, raise_trimBlank, Span.raise_slice, Span.raise_slice, h]

theorem recased_columns (h : raise text = raise text') (os : List ColumnOutline) :
    List.Forall₂ (Column.Recased text text') (os.map (·.fill text)) (os.map (·.fill text')) := by
  induction os with
  | nil => exact List.Forall₂.nil
  | cons o os ih => exact List.Forall₂.cons (o.recased_fill h) ih

theorem groupsAt_recased (h : raise text = raise text') {t t' : Table}
    (ht : List.Forall₂ (fun c c' => sameLetters c.name c'.name = true) t.columns t'.columns)
    (keys : List (KeyKind × List Span)) : groupsAt text t keys = groupsAt text' t' keys := by
  have hindex (s : Span) : t.columnIndex? (nameAt text s) = t'.columnIndex? (nameAt text' s) :=
    Table.columnIndex?_congr ht (spelledAlike_nameAt h s).1
  rw [groupsAt, groupsAt]
  simp only [hindex]

/-- One outline, filled from two texts that are spelled alike. -/
theorem Outline.recased_fill (h : raise text = raise text') (o : Outline) :
    Table.Recased text text' (o.fill text).1 (o.fill text').1 := by
  have hcolumns := recased_columns h o.columns
  have hgroups : groupsAt text (o.draft text).1 o.keys = groupsAt text' (o.draft text').1 o.keys :=
    groupsAt_recased h (hcolumns.imp fun _ _ hc => hc.name.1) o.keys
  have hfill (text : List Char) : (o.fill text).1
      = (o.draft text).1.addKeyGroups (groupsAt text (o.draft text).1 o.keys) :=
    fillKeys_table text _ o.keys
  rw [hfill text, hfill text', hgroups, Table.addKeyGroups_eq, Table.addKeyGroups_eq]
  exact {
    name := spelledAlike_getD h o.name
    columns := hcolumns
    comment := by
      unfold Outline.draft
      cases o.comment <;> rfl
    primaryKeys := rfl
    uniqueKeys := rfl
    indexKeys := rfl }

end

/-- Statements that are spelled alike are read alike: none declares a table, or both fail at one
offset with one message, or both declare tables that differ only in the case of names and defaults
and in comments. -/
theorem parseTable_recased (s s' : String) (h : raised s = raised s') :
    (parseTable s = .ok none ∧ parseTable s' = .ok none)
      ∨ (∃ e e', parseTable s = .error e ∧ parseTable s' = .error e'
          ∧ e.failure.offset = e'.failure.offset ∧ e.message = e'.message)
      ∨ ∃ t t', parseTable s = .ok (some t) ∧ parseTable s' = .ok (some t')
          ∧ t.Recased s.toList s'.toList t' := by
  have hraise : raise s.toList = raise s'.toList := String.ofList_injective h
  have htree : declarationTree s.toList = declarationTree s'.toList := by
    rw [declarationTree, declarationTree, hraise]
  have hdeclares := Sql.isTableDeclaration_congr hraise
  unfold parseTable readTable
  by_cases hdeclared : Sql.isTableDeclaration s'.toList = true
  · simp only [hdeclares, hdeclared, htree]
    cases declarationTree s'.toList with
    | error failure => exact Or.inr (Or.inl ⟨_, _, rfl, rfl, rfl, rfl⟩)
    | ok found =>
      cases found with
      | none => exact Or.inr (Or.inl ⟨_, _, rfl, rfl, rfl, rfl⟩)
      | some tree =>
        exact Or.inr (Or.inr ⟨_, _, rfl, rfl, (Outline.ofTree tree).recased_fill hraise⟩)
  · simp only [hdeclares, hdeclared]
    exact Or.inl ⟨rfl, rfl⟩

/-- A declaration in two spellings, with a key that names its columns in other cases. -/
def mixedCase : String × String :=
  ("create Table `Tä` (Id int default ('x'), B INT, key (iD, b))",
    "CREATE TABLE `tä` (iD INT DEFAULT ('X'), b int, KEY (ID, B))")

theorem parseTable_recased_mixedCase :
    raised mixedCase.1 = raised mixedCase.2
      ∧ ((parseTable mixedCase.1 = .ok none ∧ parseTable mixedCase.2 = .ok none)
        ∨ (∃ e e', parseTable mixedCase.1 = .error e ∧ parseTable mixedCase.2 = .error e'
            ∧ e.failure.offset = e'.failure.offset ∧ e.message = e'.message)
        ∨ ∃ t t', parseTable mixedCase.1 = .ok (some t) ∧ parseTable mixedCase.2 = .ok (some t')
            ∧ t.Recased mixedCase.1.toList mixedCase.2.toList t') := by
  have hletters : raise mixedCase.1.toList = raise mixedCase.2.toList := by decide
  have h : raised mixedCase.1 = raised mixedCase.2 := congrArg String.ofList hletters
  exact ⟨h, parseTable_recased mixedCase.1 mixedCase.2 h⟩

end GoScaffold
