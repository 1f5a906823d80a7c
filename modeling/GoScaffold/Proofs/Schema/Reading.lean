import GoScaffold.Proofs.Sql.Quoting
import GoScaffold.Schema.Outline

set_option autoImplicit false

/-! # What outlines say

An outline holds places of a text. All that filling takes from it is its draft: the table without
keys, and the keys by the names of their members. Where all members name columns, filling adds the
keys one after another and warns of nothing. -/

namespace GoScaffold

open Text

open Grammar (Tree Keyword)

/-! ## Spans of quoted texts -/

theorem nameAt_backticked (before after : List Char) {name : List Char} (h : '`' ∉ name) :
    nameAt (before ++ ('`' :: (name ++ ['`']) ++ after))
        ⟨width before, width before + width ('`' :: (name ++ ['`']))⟩ = String.ofList name := by
  rw [nameAt, Span.slice_part, Sql.unquoteIdentifier_backticked h]

theorem stringAt_literal {q : Char} (hq : q = '\'' ∨ q = '"') (before after value : List Char) :
    stringAt (before ++ (Sql.literal q value ++ after))
        ⟨width before, width before + width (Sql.literal q value)⟩ = String.ofList value := by
  rw [stringAt, Span.slice_part, Sql.unquoteString_literal hq]

/-! ## Parts of columns -/

theorem ColumnOutline.fill_add_comment (o : ColumnOutline) (text : List Char) (k : Keyword)
    (a b c d start stop : Nat) :
    (o.add (.node .commentAttr a b
        [.node (.keyword k) c d [], .node .stringLiteral start stop []])).fill text
      = { o.fill text with comment := some (stringAt text ⟨start, stop⟩) } :=
  rfl

theorem ColumnOutline.fill_add_default (o : ColumnOutline) (text : List Char) (k : Keyword)
    (a b c d start stop : Nat) (t : Tree) :
    (o.add (.node .defaultClause a b
        [.node (.keyword k) c d [], .node .defaultValue start stop [t]])).fill text
      = { o.fill text with
          flags := { (o.fill text).flags with
            hasDefault := true, currentTimestamp := decide (t.rule = .currentTimestamp) }
          default := some (String.ofList (stripParens (trimBlank (Span.slice ⟨start, stop⟩ text)))) } := by
  obtain ⟨rule, first, last, children⟩ := t
  by_cases h : rule = .currentTimestamp <;>
    simp [ColumnOutline.add, ColumnOutline.fill, Tree.rule, Tree.child?, Tree.children, Tree.span, h]

/-! ## Drafts -/

/-- The table of an outline without keys, and the keys by the names of their members. -/
def Outline.draft (o : Outline) (text : List Char) : Table × List (KeyKind × List String) :=
  ({ name := (o.name.map (nameAt text)).getD ""
     columns := o.columns.map (·.fill text)
     comment := o.comment.map (stringAt text) },
    o.keys.map fun key => (key.1, key.2.map (nameAt text)))

theorem fillKeys_congr {text other : List Char} {keys others : List (KeyKind × List Span)}
    (h : keys.map (fun key => (key.1, key.2.map (nameAt text)))
      = others.map fun key => (key.1, key.2.map (nameAt other))) (t : Table) :
    fillKeys text t keys = fillKeys other t others := by
  induction keys generalizing others t with
  | nil =>
    have : others = [] := by simpa using h.symm
    rw [this]
    rfl
  | cons key keys ih =>
    cases others with
    | nil => simp at h
    | cons key' others =>
      simp only [List.map_cons, List.cons.injEq, Prod.mk.injEq] at h
      have hkey : fillKey text t key = fillKey other t key' := by
        simp only [fillKey, h.1.1, h.1.2]
      simp only [fillKeys, hkey, ih h.2]

/-- Filling depends on the draft alone. -/
theorem Outline.fill_congr {o o' : Outline} {text text' : List Char}
    (h : o.draft text = o'.draft text') : o.fill text = o'.fill text' := by
  simp only [draft, Prod.mk.injEq] at h
  simp only [fill, h.1]
  exact fillKeys_congr h.2 _

/-! ## Keys whose members name columns -/

theorem resolveMembers_of_columnIndex? {t : Table} (kind : KeyKind) {names : List String}
    {places : List Nat} (h : names.map t.columnIndex? = places.map some) :
    resolveMembers t kind names = (places, []) := by
  induction names generalizing places with
  | nil =>
    have : places = [] := by simpa using h.symm
    rw [this]
    rfl
  | cons name names ih =>
    cases places with
    | nil => simp at h
    | cons place places =>
      simp only [List.map_cons, List.cons.injEq] at h
      simp only [resolveMembers, ih h.2, h.1]

/-- The table with key groups added one after another. -/
def Table.addKeyGroups (t : Table) (groups : List (KeyKind × KeyGroup)) : Table :=
  groups.foldl (fun t group => t.addKeyGroup group.1 group.2) t

/-- The key groups of one kind, in order. -/
def groupsOf (kind : KeyKind) (groups : List (KeyKind × KeyGroup)) : List KeyGroup :=
  (groups.filter (·.1 == kind)).map (·.2)

theorem Table.addKeyGroups_eq (t : Table) (groups : List (KeyKind × KeyGroup)) :
    t.addKeyGroups groups = { t with
      primaryKeys := t.primaryKeys ++ groupsOf .primary groups
      uniqueKeys := t.uniqueKeys ++ groupsOf .unique groups
      indexKeys := t.indexKeys ++ groupsOf .index groups } := by
  induction groups generalizing t with
  | nil => simp [addKeyGroups, groupsOf]
  | cons group groups ih =>
    obtain ⟨kind, group⟩ := group
    rw [addKeyGroups, List.foldl_cons, ← addKeyGroups, ih]
    cases kind <;> simp [addKeyGroup, groupsOf]

theorem fillKeys_of_columnIndex? {text : List Char} {t : Table} {keys : List (KeyKind × List Span)}
    {groups : List (KeyKind × KeyGroup)} (hne : ∀ group ∈ groups, group.2.places ≠ [])
    (h : keys.map (fun key => (key.1, (key.2.map (nameAt text)).map t.columnIndex?))
      = groups.map fun group => (group.1, group.2.places.map some)) :
    fillKeys text t keys = (t.addKeyGroups groups, []) := by
  induction keys generalizing groups t with
  | nil =>
    have : groups = [] := by simpa using h.symm
    rw [this]
    rfl
  | cons key keys ih =>
    cases groups with
    | nil => simp at h
    | cons group groups =>
      simp only [List.map_cons, List.cons.injEq, Prod.mk.injEq] at h
      obtain ⟨⟨hkind, hplaces⟩, hrest⟩ := h
      have hgroup : group.2.places.isEmpty = false := by
        simpa using hne group (List.mem_cons_self ..)
      have hkey : fillKey text t key = (t.addKeyGroup group.1 group.2, []) := by
        rw [fillKey, resolveMembers_of_columnIndex? key.1 hplaces, hkind]
        simp only [hgroup, Bool.false_eq_true, ↓reduceIte]
      -- Adding a key leaves the columns, so later members name the same places.
      have hindex (name : String) :
          (t.addKeyGroup group.1 group.2).columnIndex? name = t.columnIndex? name := by
        simp [Table.columnIndex?]
      have hkeys := ih (t := t.addKeyGroup group.1 group.2)
        (fun g hg => hne g (List.mem_cons_of_mem _ hg)) (by simpa only [funext hindex] using hrest)
      simp [fillKeys, hkey, hkeys, Table.addKeyGroups]

end GoScaffold
