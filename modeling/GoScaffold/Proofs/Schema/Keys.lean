import GoScaffold.Schema.Keys
import Mathlib.Data.Finset.Card
import Mathlib.Data.List.Forall2

set_option autoImplicit false

/-! # The keys of any table

Tables that are built by hand may have groups that are empty or name places the table does not have.
Their keys are still sound, and all that is rendered relies on it (`Table.resolves_keys`): no key is
empty, the unique groups are told by places of the table in one fixed order, the primary group is one
of them, and there are as many repeated groups as unique groups less the different ones. -/

namespace GoScaffold

/-! ## Columns of the table -/

namespace Table

/-- Some columns of the table, at least one. -/
structure IsKey (t : Table) (key : List Column) : Prop where
  ne_nil : key ≠ []
  subset : ∀ c ∈ key, c ∈ t.columns

section

variable {t : Table} {key : List Column}

theorem isKey_of_mem_resolve {groups : List KeyGroup} (h : key ∈ t.resolve groups) : t.IsKey key where
  ne_nil := by
    have hcolumns := (List.mem_filter.1 h).2
    intro hnil
    rw [hnil] at hcolumns
    cases hcolumns
  subset := by
    intro c hc
    obtain ⟨g, -, rfl⟩ := List.mem_map.1 (List.mem_filter.1 h).1
    obtain ⟨place, -, hplace⟩ := List.mem_filterMap.1 hc
    exact List.mem_of_getElem? hplace

theorem isKey_of_mem_unique (h : key ∈ t.keys.unique) : t.IsKey key := by
  rcases List.mem_append.1 h with hinline | hgroups
  · obtain ⟨c, hc, rfl⟩ := List.mem_map.1 hinline
    refine ⟨List.cons_ne_nil _ _, fun d hd => ?_⟩
    rw [List.mem_singleton.1 hd]
    exact (List.mem_filter.1 hc).1
  · rcases List.mem_append.1 hgroups with hprimary | hunique
    · exact isKey_of_mem_resolve hprimary
    · exact isKey_of_mem_resolve hunique

end

end Table

/-! ## Groups by their places -/

/-- The places of the group that the table has, in the order of the group. -/
def KeyGroup.placesIn (g : KeyGroup) (t : Table) : List Nat :=
  g.places.filter (· < t.columns.length)

namespace Table

/-- The key has the columns at these places, in this order. -/
def IsKeyAt (t : Table) (places : List Nat) (key : List Column) : Prop :=
  List.Forall₂ (fun place c => t.columns[place]? = some c) places key

/-- The groups by their places; one that has no place in the table is left out. -/
def placedGroups (t : Table) (groups : List KeyGroup) : List (List Nat) :=
  (groups.map (·.placesIn t)).filter (· ≠ [])

/-- The places of the columns that are a key by themselves. -/
def inlinePlaces (t : Table) : List Nat :=
  (List.range t.columns.length).filter fun place =>
    t.columns[place]?.any fun c => c.flags.primary || c.flags.unique

/-- The columns of a group are those at the places that the table has. -/
theorem isKeyAt_groupColumns (t : Table) (g : KeyGroup) :
    t.IsKeyAt (g.placesIn t) (t.groupColumns g) := by
  unfold IsKeyAt KeyGroup.placesIn groupColumns
  induction g.places with
  | nil => exact .nil
  | cons place places ih =>
    by_cases hplace : place < t.columns.length
    · have hcolumn := List.getElem?_eq_getElem hplace
      rw [List.filter_cons_of_pos (by simpa using hplace), List.filterMap_cons_some hcolumn]
      exact .cons hcolumn ih
    · have hnone := List.getElem?_eq_none (Nat.le_of_not_lt hplace)
      rw [List.filter_cons_of_neg (by simpa using hplace), List.filterMap_cons_none hnone]
      exact ih

theorem isKeyAt_resolve (t : Table) (groups : List KeyGroup) :
    List.Forall₂ t.IsKeyAt (t.placedGroups groups) (t.resolve groups) := by
  refine List.rel_filter (R := t.IsKeyAt) (fun places columns h => ?_) ?_
  · cases h <;> simp
  · rw [List.forall₂_map_left_iff, List.forall₂_map_right_iff, List.forall₂_same]
    exact fun g _ => t.isKeyAt_groupColumns g

theorem isKeyAt_inlineKeys (t : Table) :
    List.Forall₂ t.IsKeyAt (t.inlinePlaces.map ([·])) t.inlineKeys := by
  have hcolumns : List.Forall₂ (fun place c => t.columns[place]? = some c)
      (List.range t.columns.length) t.columns := by
    rw [List.forall₂_iff_get]
    refine ⟨List.length_range, fun place _ hplace => ?_⟩
    simp [List.getElem?_eq_getElem hplace]
  have hinline := List.rel_filter (p := fun place =>
    t.columns[place]?.any fun c => c.flags.primary || c.flags.unique)
    (q := fun c => c.flags.primary || c.flags.unique) (fun place c h => by simp [h]) hcolumns
  rw [inlineKeys, List.forall₂_map_left_iff, List.forall₂_map_right_iff]
  exact hinline.imp fun _ _ h => .cons h .nil

/-! ## The primary group -/

/-- The primary group is the first of the columns that are primary by themselves and of the primary
groups. -/
theorem primary_keys (t : Table) : t.keys.primary
    = ((t.columns.filter (·.flags.primary)).map ([·]) ++ t.resolve t.primaryKeys).head? := by
  rw [List.head?_append, List.head?_map, List.head?_filter]
  unfold keys
  cases t.columns.find? (·.flags.primary) <;> rfl

theorem resolve_eq_nil_iff {t : Table} {groups : List KeyGroup} :
    t.resolve groups = [] ↔ ∀ g ∈ groups, ∀ place ∈ g.places, t.columns.length ≤ place := by
  simp [resolve, groupColumns, List.filter_eq_nil_iff, List.filterMap_eq_nil_iff]

theorem primary_keys_eq_none_iff {t : Table} : t.keys.primary = none
    ↔ (∀ c ∈ t.columns, c.flags.primary = false)
      ∧ ∀ g ∈ t.primaryKeys, ∀ place ∈ g.places, t.columns.length ≤ place := by
  rw [primary_keys, List.head?_eq_none_iff, List.append_eq_nil_iff, List.map_eq_nil_iff,
    List.filter_eq_nil_iff, resolve_eq_nil_iff]
  simp only [Bool.not_eq_true]

end Table

/-- The primary group identifies at most one row, however it is declared. -/
theorem mem_unique_of_primary {t : Table} {key : List Column} (h : t.keys.primary = some key) :
    key ∈ t.keys.unique := by
  rw [t.primary_keys] at h
  rcases List.mem_append.1 (List.mem_of_head? h) with hinline | hgroup
  · obtain ⟨c, hc, rfl⟩ := List.mem_map.1 hinline
    obtain ⟨hmem, hprimary⟩ := List.mem_filter.1 hc
    exact List.mem_append_left _ (List.mem_map_of_mem (List.mem_filter.2 ⟨hmem, by simp [hprimary]⟩))
  · exact List.mem_append_right _ (List.mem_append_left _ hgroup)

/-! ## Repeated groups -/

theorem any_sameColumns_iff {earlier : List (List Column)} {group : List Column} :
    earlier.any (sameColumns · group) = true
      ↔ group.map (·.name) ∈ earlier.map (List.map (·.name)) := by
  simp only [List.any_eq_true, sameColumns, beq_iff_eq, List.mem_map]

/-- Each group after the earlier ones is a repeated one or brings column names that are new. -/
theorem length_repeatedGroups (earlier groups : List (List Column)) :
    (repeatedGroups earlier groups).length
        + ((earlier ++ groups).map (List.map (·.name))).toFinset.card
      = groups.length + (earlier.map (List.map (·.name))).toFinset.card := by
  induction groups generalizing earlier with
  | nil => simp [repeatedGroups]
  | cons group rest ih =>
    have hrest := ih (earlier ++ [group])
    have hgroup : ((earlier ++ [group]).map (List.map (·.name))).toFinset
        = insert (group.map (·.name)) (earlier.map (List.map (·.name))).toFinset := by
      ext names
      simp
    rw [List.append_assoc, List.singleton_append, hgroup] at hrest
    rw [repeatedGroups, List.length_cons]
    -- The names of the group are among the earlier ones just where it is a repeated one.
    split
    · next hany =>
      have hmem := List.mem_toFinset.2 (any_sameColumns_iff.1 hany)
      rw [Finset.insert_eq_of_mem hmem] at hrest
      rw [List.length_cons]
      omega
    · next hany =>
      have hnew := mt (any_sameColumns_iff.2 ∘ List.mem_toFinset.1) hany
      rw [Finset.card_insert_of_notMem hnew] at hrest
      omega

/-- Each unique group is a repeated one or the first with its column names. -/
theorem Keys.length_duplicates (k : Keys) :
    k.duplicates.length + (k.unique.map (List.map (·.name))).toFinset.card = k.unique.length := by
  have hlength := length_repeatedGroups [] k.unique
  rwa [List.nil_append, List.map_nil, List.toFinset_nil, Finset.card_empty, Nat.add_zero] at hlength

/-! ## All keys -/

/-- What holds of the keys of a table, whatever its groups list. -/
structure Table.Resolves (t : Table) (k : Keys) : Prop where
  ne_nil : ∀ key ∈ k.unique ++ k.index, key ≠ []
  /-- The columns that are a key by themselves, the primary groups and the unique groups: each in the
  order of the table, and none but the groups without columns left out. -/
  unique : List.Forall₂ t.IsKeyAt
    (t.inlinePlaces.map ([·]) ++ t.placedGroups t.primaryKeys ++ t.placedGroups t.uniqueKeys) k.unique
  index : List.Forall₂ t.IsKeyAt (t.placedGroups t.indexKeys) k.index
  primary : ∀ key, k.primary = some key → key ∈ k.unique
  /-- There is a primary group unless no column is primary by itself and no primary group has a place
  in the table. -/
  primary_eq_none : k.primary = none ↔ (∀ c ∈ t.columns, c.flags.primary = false)
    ∧ ∀ g ∈ t.primaryKeys, ∀ place ∈ g.places, t.columns.length ≤ place
  /-- A group is a repeated one unless it is the first with its column names. -/
  duplicates : k.duplicates.length + (k.unique.map (List.map (·.name))).toFinset.card
    = k.unique.length

/-- The keys of a table are sound, also where its groups are empty or name places it does not have. -/
theorem Table.resolves_keys (t : Table) : t.Resolves t.keys where
  ne_nil := by
    intro key hkey
    rcases List.mem_append.1 hkey with hunique | hindex
    · exact (isKey_of_mem_unique hunique).ne_nil
    · exact (isKey_of_mem_resolve hindex).ne_nil
  unique := by
    have hgroups := List.rel_append (t.isKeyAt_resolve t.primaryKeys) (t.isKeyAt_resolve t.uniqueKeys)
    rw [List.append_assoc]
    exact List.rel_append t.isKeyAt_inlineKeys hgroups
  index := t.isKeyAt_resolve t.indexKeys
  primary _ := mem_unique_of_primary
  primary_eq_none := primary_keys_eq_none_iff
  duplicates := t.keys.length_duplicates

/-- A table with groups that are empty and groups that name places it does not have. -/
def strayTable : Table where
  name := "t"
  columns := [{ name := "a", declaredType := "INT", flags := { primary := true } },
    { name := "b", declaredType := "INT" }]
  primaryKeys := [⟨[]⟩, ⟨[5, 0]⟩]
  uniqueKeys := [⟨[1, 7, 0]⟩, ⟨[9]⟩]
  indexKeys := [⟨[2]⟩]

example : strayTable.keys.unique.map (List.map (·.name)) = [["a"], ["a"], ["b", "a"]]
    ∧ strayTable.keys.index = [] ∧ strayTable.keys.duplicates.length = 1 :=
  ⟨rfl, rfl, rfl⟩

end GoScaffold
