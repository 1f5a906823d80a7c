import GoScaffold.Proofs.Grammar.Told
import GoScaffold.Proofs.Schema.Reading

set_option autoImplicit false

/-! # Outlines of trees that tell the same

All that an outline keeps of a tree are places whose text the tree tells. So trees that tell the same
of two texts have outlines with one draft (`Outline.draft_ofTree_congr`). -/

namespace GoScaffold

open Grammar (Tree)

variable {text text' : List Char}

/-! ## Parts -/

/-- A fold over trees that tell the same keeps what each step keeps. -/
theorem foldl_of_told {β : Type} {add : β → Tree → β} {R : β → β → Prop}
    (hadd : ∀ ⦃o o' : β⦄ ⦃t t' : Tree⦄, R o o' → t.told text = t'.told text' →
      R (add o t) (add o' t')) {ts ts' : List Tree}
    (h : ts.map (Tree.told text) = ts'.map (Tree.told text')) {o o' : β} (ho : R o o') :
    R (ts.foldl add o) (ts'.foldl add o') := by
  induction ts generalizing ts' o o' with
  | nil =>
    have hnil : ts' = [] := by simpa using h.symm
    rw [hnil]
    exact ho
  | cons t ts ih =>
    cases ts' with
    | nil => simp at h
    | cons t' ts' =>
      rw [List.map_cons, List.map_cons, List.cons.injEq] at h
      exact ih h.2 (hadd ho h.1)

/-- The text of a part that is told. -/
theorem map_slice_partSpan? (text : List Char) (t : Tree) {r : Grammar.Rule} (hr : r.isTold = true) :
    (partSpan? t r).map (·.slice text) = ((t.told text).child? r).map (·.text) := by
  rw [partSpan?, Tree.child?_told, Option.map_map, Option.map_map]
  -- The part has the rule that was asked for, so its text is told.
  refine Option.map_congr fun u hu => ?_
  have hrule : u.rule = r := by simpa using List.find?_some (Option.mem_def.1 hu)
  exact (Tree.text_told text (by rw [hrule, hr])).symm

theorem map_slice_partSpan?_congr {t t' : Tree} (h : t.told text = t'.told text')
    {r : Grammar.Rule} (hr : r.isTold = true) :
    (partSpan? t r).map (·.slice text) = (partSpan? t' r).map (·.slice text') := by
  rw [map_slice_partSpan? text t hr, h, map_slice_partSpan? text' t' hr]

theorem map_nameAt (text : List Char) (s : Option Span) :
    s.map (nameAt text) = (s.map (·.slice text)).map fun w => String.ofList (Sql.unquoteIdentifier w) := by
  rw [Option.map_map]
  rfl

theorem map_stringAt (text : List Char) (s : Option Span) :
    s.map (stringAt text) = (s.map (·.slice text)).map fun w => String.ofList (Sql.unquoteString w) := by
  rw [Option.map_map]
  rfl

/-! ## Columns -/

namespace ColumnOutline

/-- The outlines hold places of the same texts. -/
structure Agrees (text text' : List Char) (o o' : ColumnOutline) : Prop where
  name : o.name.map (·.slice text) = o'.name.map (·.slice text')
  declaredType : o.declaredType.map (·.slice text) = o'.declaredType.map (·.slice text')
  flags : o.flags = o'.flags
  comment : o.comment.map (·.slice text) = o'.comment.map (·.slice text')
  default : o.default.map (·.slice text) = o'.default.map (·.slice text')

variable {o o' : ColumnOutline}

theorem Agrees.fill (h : Agrees text text' o o') : o.fill text = o'.fill text' := by
  have hdefault (s : Option Span) (text : List Char) :
      s.map (fun s => String.ofList (stripParens (Text.trimBlank (s.slice text))))
        = (s.map (·.slice text)).map fun w => String.ofList (stripParens (Text.trimBlank w)) := by
    rw [Option.map_map]
    rfl
  rw [ColumnOutline.fill, ColumnOutline.fill, map_nameAt, map_nameAt, map_stringAt, map_stringAt,
    hdefault, hdefault, h.name, h.declaredType, h.flags, h.comment, h.default]

/-- A default says the same where it is told the same. -/
theorem Agrees.add_default (h : Agrees text text' o o') {part part' : Tree}
    (hpart : part.told text = part'.told text') (hrule : part.rule = .defaultClause) :
    Agrees text text' (o.add part) (o'.add part') := by
  have hvalue := Tree.map_child?_of_told hpart .defaultValue
  rw [add, add, ← Tree.rule_eq_of_told hpart, hrule]
  simp only
  cases hv : part.child? .defaultValue with
  | none =>
    rw [hv, Option.map_none, eq_comm, Option.map_eq_none_iff] at hvalue
    rw [hvalue]
    exact h
  | some value =>
    rw [hv, Option.map_some, eq_comm, Option.map_eq_some_iff] at hvalue
    obtain ⟨value', hv', hsame⟩ := hvalue
    have hval : value.rule = .defaultValue := by simpa using List.find?_some hv
    have hslice := Tree.slice_eq_of_told hsame.symm (by rw [hval]; rfl)
    have htime := congrArg Option.isSome (Tree.map_child?_of_told hsame .currentTimestamp)
    rw [Option.isSome_map, Option.isSome_map] at htime
    rw [hv']
    exact ⟨h.name, h.declaredType, by simp only [h.flags, htime], h.comment,
      congrArg some hslice⟩

theorem Agrees.add (h : Agrees text text' o o') {part part' : Tree}
    (hpart : part.told text = part'.told text') :
    Agrees text text' (o.add part) (o'.add part') := by
  have hrule := Tree.rule_eq_of_told hpart
  have hspan (r : Grammar.Rule) (hr : r.isTold = true) := map_slice_partSpan?_congr hpart hr
  -- Each kind of part sets one field, and the others stay as they are.
  cases hr : part.rule with
  | defaultClause => exact h.add_default hpart hr
  | identifier =>
    have hslice := Tree.slice_eq_of_told hpart (by rw [hr]; rfl)
    have hnamed : o.name.isNone = o'.name.isNone := by
      rw [← Option.isNone_map, h.name, Option.isNone_map]
    simp only [ColumnOutline.add, ← hrule, hr, hnamed]
    split
    · exact { h with name := congrArg some hslice }
    · exact h
  | dataType =>
    simp only [ColumnOutline.add, ← hrule, hr]
    exact { h with declaredType := hspan .typeName rfl }
  | commentAttr =>
    simp only [ColumnOutline.add, ← hrule, hr]
    exact { h with comment := hspan .stringLiteral rfl }
  | notNull | autoIncrement | onUpdate | primaryAttr | uniqueAttr =>
    simp only [ColumnOutline.add, ← hrule, hr, h.flags]
    exact { h with flags := rfl }
  | _ =>
    simp only [ColumnOutline.add, ← hrule, hr]
    exact h

/-- The columns of trees that tell the same hold the same. -/
theorem agrees_ofTree {t t' : Tree} (h : t.told text = t'.told text') :
    Agrees text text' (ofTree t) (ofTree t') :=
  foldl_of_told (fun _ _ _ _ ho hpart => ho.add hpart) (Tree.map_children_of_told h)
    ⟨rfl, rfl, rfl, rfl, rfl⟩

end ColumnOutline

/-! ## Keys -/

/-- A key by the names of its members. -/
def keyNames (text : List Char) (key : KeyKind × List Span) : KeyKind × List String :=
  (key.1, key.2.map (nameAt text))

theorem map_nameAt_members (text : List Char) (parts : Tree) :
    (parts.children.filterMap (partSpan? · .identifier)).map (nameAt text)
      = (parts.told text).children.filterMap fun u =>
          (u.child? .identifier).map fun v => String.ofList (Sql.unquoteIdentifier v.text) := by
  rw [List.map_filterMap, Tree.children_told, List.filterMap_map]
  congr 1
  funext t
  rw [map_nameAt, map_slice_partSpan? text t rfl, Option.map_map]
  rfl

theorem keyOutline?_congr {t t' : Tree} (h : t.told text = t'.told text') :
    (keyOutline? t).map (keyNames text) = (keyOutline? t').map (keyNames text') := by
  have hfind (text : List Char) (t : Tree) :
      (t.children.find? (·.rule != .constraintName)).map (Tree.told text)
        = (t.told text).children.find? (·.rule != .constraintName) := by
    rw [Tree.children_told, List.find?_map]
    simp only [Function.comp_def, Tree.rule_told]
  have hdefinition := hfind text t
  rw [h, ← hfind text' t'] at hdefinition
  rw [keyOutline?, keyOutline?]
  cases hd : t.children.find? (·.rule != .constraintName) with
  | none =>
    rw [hd, Option.map_none, eq_comm, Option.map_eq_none_iff] at hdefinition
    rw [hdefinition]
    rfl
  | some definition =>
    rw [hd, Option.map_some, eq_comm, Option.map_eq_some_iff] at hdefinition
    obtain ⟨definition', hd', hsame⟩ := hdefinition
    rw [hd']
    simp only [Tree.rule_eq_of_told hsame]
    cases keyKind? definition.rule with
    | none => rfl
    | some kind =>
      have hparts := Tree.map_child?_of_told hsame .keyParts
      cases hp : definition.child? .keyParts with
      | none =>
        rw [hp, Option.map_none, Option.map_eq_none_iff] at hparts
        rw [hparts]
        rfl
      | some parts =>
        rw [hp, Option.map_some, Option.map_eq_some_iff] at hparts
        obtain ⟨parts', hp', hmembers⟩ := hparts
        rw [hp']
        simp only [Option.map_some, keyNames, map_nameAt_members, hmembers]

/-! ## Tables -/

namespace Outline

/-- The last of several names is told the same. -/
theorem map_nameAt_getLast? {t t' : Tree} (h : t.told text = t'.told text') :
    ((t.children.filter (·.rule == .identifier)).getLast?.map (·.span)).map (nameAt text)
      = ((t'.children.filter (·.rule == .identifier)).getLast?.map (·.span)).map (nameAt text') := by
  have hlast (text : List Char) (t : Tree) :
      ((t.children.filter (·.rule == .identifier)).getLast?.map (·.span)).map (·.slice text)
        = ((t.told text).children.filter (·.rule == .identifier)).getLast?.map (·.text) := by
    rw [Tree.children_told, List.filter_map, List.getLast?_map, Option.map_map, Option.map_map]
    simp only [Function.comp_def, Tree.rule_told]
    refine Option.map_congr fun u hu => ?_
    have hrule : u.rule = .identifier := by
      simpa using (List.mem_filter.1 (List.mem_of_getLast? (Option.mem_def.1 hu))).2
    exact (Tree.text_told text (by rw [hrule]; rfl)).symm
  rw [map_nameAt, map_nameAt, hlast, hlast, h]

theorem draft_add_congr {o o' : Outline} (h : o.draft text = o'.draft text') {part part' : Tree}
    (hpart : part.told text = part'.told text') :
    (o.add part).draft text = (o'.add part').draft text' := by
  have hrule := Tree.rule_eq_of_told hpart
  rw [draft, draft, Prod.mk.injEq, Table.mk.injEq] at h
  obtain ⟨⟨hname, hcolumns, -, -, -, hcomment⟩, hkeys⟩ := h
  cases hr : part.rule with
  | tableName =>
    simp only [add, ← hrule, hr, draft, map_nameAt_getLast? hpart, hcolumns, hcomment, hkeys]
  | columnDef =>
    simp only [add, ← hrule, hr, draft, List.map_append, List.map_cons, List.map_nil, hname, hcolumns,
      hcomment, hkeys, (ColumnOutline.agrees_ofTree hpart).fill]
  | tableConstraint =>
    have hkey := congrArg Option.toList (keyOutline?_congr hpart)
    rw [Option.toList_map, Option.toList_map] at hkey
    simp only [add, ← hrule, hr, draft, List.map_append, hname, hcolumns, hcomment, hkeys]
    exact congrArg _ (congrArg _ hkey)
  | tableComment =>
    have hcomment' := map_slice_partSpan?_congr hpart (r := .stringLiteral) rfl
    simp only [add, ← hrule, hr, draft, map_stringAt, hcomment', hname, hcolumns, hkeys]
  | _ => simp only [add, ← hrule, hr, draft, hname, hcolumns, hcomment, hkeys]

/-- Trees that tell the same have outlines with one draft. -/
theorem draft_ofTree_congr {t t' : Tree} (h : t.told text = t'.told text') :
    (ofTree t).draft text = (ofTree t').draft text' := by
  let SameDraft (o o' : Outline) : Prop := o.draft text = o'.draft text'
  have hstart : SameDraft {} {} := rfl
  exact foldl_of_told (R := SameDraft) (fun _ _ _ _ ho hpart => draft_add_congr ho hpart)
    (Tree.map_children_of_told h) hstart

end Outline

end GoScaffold
