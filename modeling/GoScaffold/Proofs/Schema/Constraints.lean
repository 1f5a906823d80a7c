import Mathlib.Data.List.Forall2
import GoScaffold.Proofs.Grammar.Shapes
import GoScaffold.Proofs.Schema.Stripped

set_option autoImplicit false

/-! # The constraints of a declaration

What the constraints of a table declare is read off the tree: a primary, unique or index definition
declares a key, a foreign key or a check declares none, and only the parts that the grammar puts there
matter, whatever names, index types and options stand around them (`DeclaresKey`). Every constraint
of a declaration is of one of these kinds (`exists_declaredKeys`), and its outline holds just the keys
that are declared so, in order (`Outline.keys_foldl`). -/

namespace GoScaffold

open Text

open Grammar (Tree IsLexeme)

open Grammar.Expr (Yields IsMatch)

/-- A key as a constraint declares it. -/
structure KeyDeclaration where
  kind : KeyKind
  /-- The names of the members in order. -/
  members : List String
  deriving DecidableEq, Repr

/-- The rule of the definitions of a kind. -/
def KeyKind.rule : KeyKind → Grammar.Rule
  | .primary => .primaryKeyDef
  | .unique => .uniqueKeyDef
  | .index => .indexDef

theorem KeyKind.keyKind?_rule (kind : KeyKind) : keyKind? kind.rule = some kind := by
  cases kind <;> rfl

/-! ## What trees declare -/

/-- A part of a key lists a name: its one identifier spells it. -/
def ListsName (text : List Char) (t : Tree) (name : String) : Prop :=
  ∃ u, t.children.filter (·.rule == .identifier) = [u]
    ∧ IsLexeme (raise text) Grammar.Scan.identifier u.span ∧ name = nameAt text u.span

/-- A constraint declares a key: but for the constraint's name it is a definition of the kind, and the
parts in the one list of that definition list the names of the members. -/
def DeclaresKey (text : List Char) (t : Tree) (key : KeyDeclaration) : Prop :=
  t.rule = .tableConstraint ∧ ∃ definition parts,
    t.children.filter (·.rule != .constraintName) = [definition]
      ∧ definition.rule = key.kind.rule
      ∧ definition.children.filter (·.rule == .keyParts) = [parts]
      ∧ List.Forall₂ (ListsName text) parts.children key.members
      ∧ key.members ≠ []

/-- A part of a declaration that declares no key: it is no constraint, or a foreign key or a check. -/
def DeclaresNoKey (t : Tree) : Prop :=
  t.rule ≠ .tableConstraint ∨ ∃ definition,
    t.children.filter (·.rule != .constraintName) = [definition]
      ∧ (definition.rule = .foreignKeyDef ∨ definition.rule = .checkDef)

/-- The keys that the parts of a declaration declare, in order. -/
inductive DeclaredKeys (text : List Char) : List Tree → List KeyDeclaration → Prop
  | nil : DeclaredKeys text [] []
  | key {t : Tree} {ts : List Tree} {key : KeyDeclaration} {keys : List KeyDeclaration}
      (head : DeclaresKey text t key) (tail : DeclaredKeys text ts keys) :
      DeclaredKeys text (t :: ts) (key :: keys)
  | other {t : Tree} {ts : List Tree} {keys : List KeyDeclaration} (head : DeclaresNoKey t)
      (tail : DeclaredKeys text ts keys) : DeclaredKeys text (t :: ts) keys

/-! ## Trees of the grammar -/

section

variable {text : List Char} {t : Tree}

theorem exists_listsName (h : Yields (raise text) Grammar.Ddl.keyPart [t]) :
    ∃ name, ListsName text t name := by
  obtain ⟨u, hu, span, hspan, heq⟩ := Grammar.Ddl.yields_identifier h
  obtain rfl : u = .node .identifier span.start span.stop [] := (List.cons.inj heq).1
  exact ⟨_, _, hu, hspan, rfl⟩

theorem exists_members {ts : List Tree}
    (h : ∀ t ∈ ts, Yields (raise text) Grammar.Ddl.keyPart [t]) :
    ∃ names, List.Forall₂ (ListsName text) ts names := by
  induction ts with
  | nil => exact ⟨[], .nil⟩
  | cons t ts ih =>
    obtain ⟨name, hname⟩ := exists_listsName (h t (List.mem_cons_self ..))
    obtain ⟨names, hnames⟩ := ih fun u hu => h u (List.mem_cons_of_mem _ hu)
    exact ⟨name :: names, .cons hname hnames⟩

/-- The members of a key are listed below its definition. -/
theorem exists_parts (h : Yields (raise text) Grammar.Ddl.primaryKeyDef [t]
      ∨ Yields (raise text) Grammar.Ddl.uniqueKeyDef [t]
      ∨ Yields (raise text) Grammar.Ddl.indexDef [t]) :
    ∃ parts names, t.children.filter (·.rule == .keyParts) = [parts]
      ∧ List.Forall₂ (ListsName text) parts.children names ∧ names ≠ [] := by
  obtain ⟨parts, hparts, hyields⟩ := Grammar.Ddl.yields_keyParts h
  obtain ⟨hne, hmembers⟩ := Grammar.Ddl.yields_keyPart hyields
  obtain ⟨names, hnames⟩ := exists_members hmembers
  refine ⟨parts, names, hparts, hnames, ?_⟩
  rintro rfl
  exact hne (List.forall₂_nil_right_iff.1 hnames)

/-- A constraint declares one key or none. -/
theorem declares_of_yields (h : Yields (raise text) Grammar.Ddl.tableConstraint [t]) :
    (∃ key, DeclaresKey text t key) ∨ DeclaresNoKey t := by
  have hrule := (Grammar.Expr.yields_phrase_iff.1 h).1
  have hkey (kind : KeyKind) {definition : Tree}
      (hdefinition : t.children.filter (·.rule != .constraintName) = [definition])
      (hkind : definition.rule = kind.rule)
      (hyields : Yields (raise text) Grammar.Ddl.primaryKeyDef [definition]
        ∨ Yields (raise text) Grammar.Ddl.uniqueKeyDef [definition]
        ∨ Yields (raise text) Grammar.Ddl.indexDef [definition]) : ∃ key, DeclaresKey text t key := by
    obtain ⟨parts, names, hparts, hnames, hne⟩ := exists_parts hyields
    exact ⟨⟨kind, names⟩, hrule, definition, parts, hdefinition, hkind, hparts, hnames, hne⟩
  obtain ⟨definition, hdefinition, (hprimary | hunique | hforeign | hcheck) | hindex⟩ :=
    Grammar.Ddl.yields_definition h
  · exact Or.inl (hkey .primary hdefinition (Grammar.Expr.yields_phrase_iff.1 hprimary).1
      (Or.inl hprimary))
  · exact Or.inl (hkey .unique hdefinition (Grammar.Expr.yields_phrase_iff.1 hunique).1
      (Or.inr (Or.inl hunique)))
  · exact Or.inr (Or.inr ⟨definition, hdefinition,
      Or.inl (Grammar.Expr.yields_phrase_iff.1 hforeign).1⟩)
  · exact Or.inr (Or.inr ⟨definition, hdefinition,
      Or.inr (Grammar.Expr.yields_phrase_iff.1 hcheck).1⟩)
  · exact Or.inl (hkey .index hdefinition (Grammar.Expr.yields_phrase_iff.1 hindex).1
      (Or.inr (Or.inr hindex)))

theorem exists_declaredKeys {ts : List Tree}
    (h : ∀ t ∈ ts, t.rule = .tableConstraint → Yields (raise text) Grammar.Ddl.tableConstraint [t]) :
    ∃ keys, DeclaredKeys text ts keys := by
  induction ts with
  | nil => exact ⟨[], .nil⟩
  | cons t ts ih =>
    obtain ⟨keys, hkeys⟩ := ih fun u hu => h u (List.mem_cons_of_mem _ hu)
    by_cases hrule : t.rule = .tableConstraint
    · rcases declares_of_yields (h t (List.mem_cons_self ..) hrule) with ⟨key, hkey⟩ | hnone
      · exact ⟨key :: keys, .key hkey hkeys⟩
      · exact ⟨keys, .other hnone hkeys⟩
    · exact ⟨keys, .other (Or.inl hrule) hkeys⟩

/-- The tree of a declaration is a match of the grammar in its capitals. -/
theorem isMatch_declarationTree (h : declarationTree text = .ok (some t)) :
    IsMatch (raise text) Grammar.Ddl.createTable t := by
  obtain ⟨ts, stop, hfound⟩ := declarationTree_eq_ok_some.1 h
  obtain ⟨us, -, hts⟩ := Grammar.Expr.found_phrase_iff.1 hfound
  obtain ⟨-, rfl⟩ := List.cons.inj hts
  exact ⟨Grammar.Ddl.cuts_createTable, .place [] text, stop, ⟨[], rfl, rfl⟩, hfound⟩

theorem yields_declarationTree (h : declarationTree text = .ok (some t)) :
    Yields (raise text) Grammar.Ddl.createTable [t] :=
  (isMatch_declarationTree h).yields

end

/-! ## Outlines -/

/-- The key that an outline holds, by the names of its members. -/
def KeyDeclaration.ofOutline (text : List Char) (key : KeyKind × List Span) : KeyDeclaration :=
  ⟨key.1, key.2.map (nameAt text)⟩

theorem find?_of_filter {α : Type} {p : α → Bool} {as : List α} {a : α} (h : as.filter p = [a]) :
    as.find? p = some a := by
  rw [← List.head?_filter, h]
  rfl

/-- What only the parts with one rule set is set by the last of them. -/
theorem foldl_last {σ β : Type} {add : σ → Tree → σ} (f : σ → β) {r : Grammar.Rule} {g : Tree → β}
    {parts : List Tree}
    (h : ∀ part ∈ parts, ∀ o, f (add o part) = if part.rule = r then g part else f o) (o : σ) :
    f (parts.foldl add o) = ((parts.filter (·.rule == r)).getLast?.map g).getD (f o) := by
  induction parts using List.reverseRecOn with
  | nil => rfl
  | append_singleton parts part ih =>
    have ih := ih fun p hp => h p (List.mem_append_left _ hp)
    rw [List.foldl_append, List.foldl_cons, List.foldl_nil, h part (by simp), List.filter_append]
    by_cases hrule : part.rule = r
    · simp [hrule]
    · simp [hrule, ih]

variable {text : List Char}

theorem ListsName.map_partSpan? {t : Tree} {name : String} (h : ListsName text t name) :
    (partSpan? t .identifier).map (nameAt text) = some name := by
  obtain ⟨u, hu, -, rfl⟩ := h
  rw [partSpan?, Tree.child?, find?_of_filter hu]
  rfl

theorem map_nameAt_of_listsName {ts : List Tree} {names : List String}
    (h : List.Forall₂ (ListsName text) ts names) :
    (ts.filterMap (partSpan? · .identifier)).map (nameAt text) = names := by
  induction h with
  | nil => rfl
  | cons head tail ih =>
    obtain ⟨span, hspan, rfl⟩ := Option.map_eq_some_iff.1 head.map_partSpan?
    simp only [List.filterMap_cons, hspan, List.map_cons, ih]

theorem DeclaresKey.keyOutline? {t : Tree} {key : KeyDeclaration} (h : DeclaresKey text t key) :
    (keyOutline? t).map (KeyDeclaration.ofOutline text) = some key := by
  obtain ⟨-, definition, parts, hdefinition, hkind, hparts, hmembers, -⟩ := h
  rw [GoScaffold.keyOutline?, find?_of_filter hdefinition]
  simp only [hkind, KeyKind.keyKind?_rule, Tree.child?, find?_of_filter hparts, Option.map_some,
    KeyDeclaration.ofOutline, map_nameAt_of_listsName hmembers]

theorem DeclaresNoKey.keyOutline? {t : Tree} (hrule : t.rule = .tableConstraint)
    (h : DeclaresNoKey t) : GoScaffold.keyOutline? t = none := by
  rcases h with h | ⟨definition, hdefinition, h⟩
  · exact absurd hrule h
  · rw [GoScaffold.keyOutline?, find?_of_filter hdefinition]
    rcases h with h | h <;> simp [h, keyKind?]

namespace Outline

theorem keys_add (o : Outline) (t : Tree) :
    (o.add t).keys
      = o.keys ++ if t.rule = .tableConstraint then (keyOutline? t).toList else [] := by
  unfold add
  split <;> simp_all

theorem columns_add (o : Outline) (t : Tree) :
    (o.add t).columns
      = o.columns ++ if t.rule = .columnDef then [ColumnOutline.ofTree t] else [] := by
  unfold add
  split <;> simp_all

/-- The keys of an outline are those that the parts of the tree declare. -/
theorem keys_foldl {ts : List Tree} {keys : List KeyDeclaration} (h : DeclaredKeys text ts keys)
    (o : Outline) : (ts.foldl add o).keys.map (.ofOutline text)
      = o.keys.map (.ofOutline text) ++ keys := by
  induction h generalizing o with
  | nil => simp
  | key head tail ih =>
    obtain ⟨outline, houtline, rfl⟩ := Option.map_eq_some_iff.1 head.keyOutline?
    rw [List.foldl_cons, ih, keys_add, if_pos head.1, houtline]
    simp
  | @other t ts keys head tail ih =>
    rw [List.foldl_cons, ih, keys_add]
    by_cases hrule : t.rule = .tableConstraint
    · simp [head.keyOutline? hrule]
    · simp [hrule]

/-- The columns of an outline are those of the tree. -/
theorem columns_foldl (ts : List Tree) (o : Outline) : (ts.foldl add o).columns
    = o.columns ++ (ts.filter (·.rule == .columnDef)).map ColumnOutline.ofTree := by
  induction ts generalizing o with
  | nil => simp
  | cons t ts ih =>
    rw [List.foldl_cons, ih, columns_add]
    by_cases hrule : t.rule = .columnDef
    · simp [hrule]
    · simp [hrule]

end Outline

/-- The parts of a declaration settle what it declares. -/
theorem DeclaredKeys.unique {ts : List Tree} {keys keys' : List KeyDeclaration}
    (h : DeclaredKeys text ts keys) (h' : DeclaredKeys text ts keys') : keys = keys' := by
  have hkeys := Outline.keys_foldl h {}
  rw [Outline.keys_foldl h' {}] at hkeys
  exact (List.append_cancel_left hkeys).symm

end GoScaffold
