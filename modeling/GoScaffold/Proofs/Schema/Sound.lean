import Mathlib.Data.List.TakeWhile
import GoScaffold.Proofs.Schema.Accounted
import GoScaffold.Proofs.Schema.Batch

set_option autoImplicit false

/-! # Tables that are read are sound

Tables that are built by hand may have groups that are empty or name places the table does not have,
and flags that do not go together. Those that are read from a schema text have none of this, whatever
the text (`Table.Sound`): each part of a column keeps what its flags say of its default, the grammar
gives every column a type, and groups are made of places that were found. -/

namespace GoScaffold

open Text

open Grammar (Tree IsLexeme)

open Grammar.Expr (Yields)

/-- A capital of ASCII first, and then capitals, digits and underscores of ASCII. -/
def IsTypeKeyword (cs : List Char) : Prop :=
  ∃ c rest, cs = c :: rest ∧ c.isUpper = true
    ∧ ∀ d ∈ rest, d.isUpper = true ∨ d.isDigit = true ∨ d = '_'

/-- The flags and the type of the column go with the rest of it. -/
structure Column.Sound (c : Column) : Prop where
  hasDefault : c.flags.hasDefault = c.default.isSome
  currentTimestamp : c.flags.currentTimestamp = true → c.flags.hasDefault = true
  declaredType : IsTypeKeyword c.declaredType.toList

/-- The group lists at least one column, and only places of columns. -/
def KeyGroup.IsOf (g : KeyGroup) (t : Table) : Prop :=
  g.places ≠ [] ∧ ∀ place ∈ g.places, place < t.columns.length

/-- What holds of every table that is read. -/
structure Table.Sound (t : Table) : Prop where
  columns : ∀ c ∈ t.columns, c.Sound
  groups : ∀ kind, ∀ g ∈ t.keyGroups kind, g.IsOf t
  /-- Every place of a group names a column. -/
  groupColumns : ∀ kind, ∀ g ∈ t.keyGroups kind,
    (t.groupColumns g).map some = g.places.map fun place => t.columns[place]?
  /-- Every group counts as a key, in order. -/
  unique : t.keys.unique = t.inlineKeys ++ (t.primaryKeys ++ t.uniqueKeys).map t.groupColumns
  index : t.keys.index = t.indexKeys.map t.groupColumns

/-! ## Defaults -/

namespace ColumnOutline

/-- A default is flagged, and so is one that is the current time. -/
def Settled (o : ColumnOutline) : Prop :=
  o.flags.hasDefault = o.default.isSome ∧ (o.flags.currentTimestamp = true → o.flags.hasDefault = true)

theorem Settled.add {o : ColumnOutline} (h : o.Settled) (part : Tree) : (o.add part).Settled := by
  unfold ColumnOutline.add
  -- Only a default touches the default and its flags.
  cases hr : part.rule with
  | defaultClause =>
    cases part.child? .defaultValue with
    | none => exact h
    | some value => exact ⟨rfl, fun _ => rfl⟩
  | identifier =>
    simp only
    split <;> exact h
  | _ => exact h

theorem settled_foldl (parts : List Tree) {o : ColumnOutline} (h : o.Settled) :
    (parts.foldl add o).Settled := by
  induction parts generalizing o with
  | nil => exact h
  | cons part parts ih => exact ih (h.add part)

/-! ## Types -/

theorem declaredType_add (o : ColumnOutline) (part : Tree) :
    (o.add part).declaredType
      = if part.rule = .dataType then partSpan? part .typeName else o.declaredType := by
  unfold add
  cases hr : part.rule with
  | defaultClause => cases part.child? .defaultValue <;> rfl
  | identifier =>
    simp only
    split <;> rfl
  | _ => rfl

end ColumnOutline

/-- What is cut off a text in capitals as a type is in capitals. -/
theorem isTypeKeyword_of_typeName {cs after : List Char}
    (h : Grammar.Scan.typeName (raise cs ++ after) = some (raise cs, after)) :
    IsTypeKeyword (raise cs) := by
  obtain ⟨first, mid, more, hfirst, hmore, hwhole⟩ := Grammar.Scan.chain_eq_some.1 h
  obtain ⟨c, rfl, hc⟩ : ∃ c, first = [c] ∧ c.isAlpha = true := by
    cases hraised : raise cs ++ after with
    | nil => simp [hraised, Grammar.Scan.one] at hfirst
    | cons d ds =>
      simp only [hraised, Grammar.Scan.one, Option.ite_none_right_eq_some, Option.some.injEq,
        Prod.mk.injEq] at hfirst
      exact ⟨d, hfirst.2.1.symm, hfirst.1⟩
  have hword : ∀ d ∈ more, d.isAlphanum = true ∨ d = '_' := by
    obtain ⟨rfl, -⟩ := Prod.mk.inj (Option.some.inj hmore)
    intro d hd
    simpa using List.mem_takeWhile_imp hd
  have hcapital : ∀ d ∈ raise cs, d.isAlpha = true → d.isUpper = true := by
    intro d hd halpha
    obtain ⟨e, -, rfl⟩ := List.mem_map.1 hd
    rwa [isUpper_toUpper, ← isAlpha_toUpper]
  rw [hwhole] at hcapital ⊢
  refine ⟨c, more, rfl, hcapital c (by simp) hc, fun d hd => ?_⟩
  rcases hword d hd with hletter | hline
  · rcases Bool.or_eq_true_iff.1 hletter with halpha | hdigit
    · exact Or.inl (hcapital d (by simp [hd]) halpha)
    · exact Or.inr (Or.inl hdigit)
  · exact Or.inr (Or.inr hline)

variable {text : List Char} {tree : Tree}

/-- The outline of a column tells where its type stands. -/
theorem exists_declaredType (h : Yields (raise text) Grammar.Ddl.columnDef [tree]) :
    ∃ span, (ColumnOutline.ofTree tree).declaredType = some span
      ∧ IsLexeme (raise text) Grammar.Scan.typeName span := by
  obtain ⟨part, hpart, hyields⟩ := Grammar.Ddl.yields_dataType h
  obtain ⟨name, hname, span, hspan, heq⟩ := Grammar.Ddl.yields_typeName hyields
  obtain rfl : name = .node .typeName span.start span.stop [] := (List.cons.inj heq).1
  refine ⟨span, ?_, hspan⟩
  rw [ColumnOutline.ofTree,
    foldl_last ColumnOutline.declaredType fun part _ o => ColumnOutline.declaredType_add o part, hpart,
    List.getLast?_singleton, Option.map_some, Option.getD_some, partSpan?, Tree.child?,
    find?_of_filter hname]
  rfl

/-- The columns of a declaration are sound. -/
theorem sound_fill (h : Yields (raise text) Grammar.Ddl.columnDef [tree]) :
    ((ColumnOutline.ofTree tree).fill text).Sound := by
  obtain ⟨hdefault, htime⟩ : (ColumnOutline.ofTree tree).Settled :=
    ColumnOutline.settled_foldl _ ⟨rfl, fun h => h⟩
  obtain ⟨span, hspan, hlexeme⟩ := exists_declaredType h
  obtain ⟨after, hscan⟩ := hlexeme.slice
  rw [← Span.raise_slice] at hscan
  refine ⟨?_, htime, ?_⟩
  · rw [ColumnOutline.fill, Option.isSome_map]
    exact hdefault
  · rw [ColumnOutline.fill, hspan, String.toList_ofList]
    exact isTypeKeyword_of_typeName hscan

/-! ## Groups -/

section

variable {t : Table} {g : KeyGroup}

theorem KeyDeclaration.isOf_of_group? {key : KeyDeclaration} (h : key.group? t = some g) : g.IsOf t := by
  rw [group?] at h
  split at h
  · cases h
  · next hne =>
    obtain rfl := Option.some.inj h
    refine ⟨hne, fun place hplace => ?_⟩
    obtain ⟨member, -, hfound⟩ := List.mem_filterMap.1 hplace
    exact (List.findIdx?_eq_some_iff_getElem.1 hfound).1

theorem Table.Accounts.isOf {keys : List KeyDeclaration} {warnings : List Warning}
    (h : t.Accounts keys warnings) {kind : KeyKind} (hg : g ∈ t.keyGroups kind) : g.IsOf t := by
  rw [h.groups] at hg
  obtain ⟨key, -, hkey⟩ := List.mem_filterMap.1 hg
  exact KeyDeclaration.isOf_of_group? hkey

theorem KeyGroup.IsOf.groupColumns (h : g.IsOf t) :
    (t.groupColumns g).map some = g.places.map fun place => t.columns[place]? := by
  have hplaces : g.placesIn t = g.places :=
    List.filter_eq_self.2 fun place hplace => by simpa using h.2 place hplace
  have hkey := t.isKeyAt_groupColumns g
  rw [hplaces, Table.IsKeyAt] at hkey
  have hsame := List.forall₂_map_left_iff.2 (List.forall₂_map_right_iff.2 hkey)
  rw [List.forall₂_eq_eq_eq] at hsame
  exact hsame.symm

/-- Groups that list columns all count as keys. -/
theorem Table.resolve_of_isOf {groups : List KeyGroup} (h : ∀ g ∈ groups, g.IsOf t) :
    t.resolve groups = groups.map t.groupColumns := by
  rw [resolve, List.filter_eq_self]
  intro columns hcolumns
  obtain ⟨g, hg, rfl⟩ := List.mem_map.1 hcolumns
  have hlength := congrArg List.length (h g hg).groupColumns
  rw [List.length_map, List.length_map] at hlength
  have hne := List.length_pos_iff.2 (h g hg).1
  simp [← List.length_eq_zero_iff]
  omega

theorem Table.sound_of_isOf (hcolumns : ∀ c ∈ t.columns, c.Sound)
    (hgroups : ∀ kind, ∀ g ∈ t.keyGroups kind, g.IsOf t) : t.Sound where
  columns := hcolumns
  groups := hgroups
  groupColumns kind g hg := (hgroups kind g hg).groupColumns
  unique := by
    have hprimary : t.resolve t.primaryKeys = _ := resolve_of_isOf (hgroups .primary)
    have hunique : t.resolve t.uniqueKeys = _ := resolve_of_isOf (hgroups .unique)
    rw [keys, hprimary, hunique, List.map_append]
  index := resolve_of_isOf (hgroups .index)

end

/-! ## Declarations -/

theorem sound_of_readTable {s : String} {t : Table} {warnings : List Warning}
    (h : readTable s = .ok (some (t, warnings))) : t.Sound := by
  obtain ⟨tree, keys, htree, -, -, htable, -⟩ := exists_outline h
  refine Table.sound_of_isOf (fun c hc => ?_) fun kind g hg => ?_
  · rw [htable, Outline.columns_fill_ofTree] at hc
    obtain ⟨column, hcolumn, rfl⟩ := List.mem_map.1 hc
    obtain ⟨hmem, hrule⟩ := List.mem_filter.1 hcolumn
    exact sound_fill
      (Grammar.Ddl.yields_columnDef (yields_declarationTree htree) hmem (by simpa using hrule))
  · rw [htable] at hg ⊢
    exact (Outline.accounts_fill ..).isOf hg

/-- Every table of a schema text is sound. -/
theorem Schema.sound_of_mem_parse {text : String} {t : Table} (h : t ∈ (parse text).tables) :
    t.Sound := by
  obtain ⟨s, warnings, hread, -⟩ := exists_readTable_of_mem h
  exact sound_of_readTable hread

/-- A schema with a column that has two defaults, a key member that names no column and a key that has
no member left. -/
def overridden : String := "create table t (a Date default '' default now(), key (z, a), key (z));"

/-- The table of that schema. -/
def overriddenTable : Table where
  name := "t"
  columns := [
    { name := "a", declaredType := "DATE", default := some "now()",
      flags := { hasDefault := true, currentTimestamp := true } }]
  indexKeys := [⟨[0]⟩]

theorem Schema.sound_of_mem_parse_overridden :
    overriddenTable ∈ (parse overridden).tables ∧ overriddenTable.Sound := by
  have htables : (parse overridden).tables = [overriddenTable] := by decide +kernel
  have hmem : overriddenTable ∈ (parse overridden).tables := by
    rw [htables]
    exact List.mem_singleton_self _
  exact ⟨hmem, sound_of_mem_parse hmem⟩

end GoScaffold
