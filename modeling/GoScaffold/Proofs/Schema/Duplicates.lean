import GoScaffold.Proofs.Schema.Batch
import GoScaffold.Proofs.Schema.Keys
import GoScaffold.Proofs.Schema.Stripped
import Mathlib.Data.List.Nodup

set_option autoImplicit false

/-! # What the warnings about keys guard

A table comes with a warning for each unique group that repeats the columns of an earlier one. So in
a schema without warnings the unique groups of a table differ by their columns. The functions for a
group are named by its fields instead, and these tell groups apart as long as each has one column. -/

namespace GoScaffold

/-! ## Repeated groups -/

theorem Keys.duplicates_eq_nil_iff (k : Keys) :
    k.duplicates = [] ↔ (k.unique.map (List.map (·.name))).Nodup := by
  have hlength := k.length_duplicates
  rw [← List.length_eq_zero_iff, ← Multiset.coe_nodup, ← Multiset.toFinset_card_eq_card_iff_nodup,
    List.toFinset_coe, Multiset.coe_card, List.length_map]
  omega

namespace Schema

/-- The warnings about the unique groups of a table are warnings of its schema. -/
theorem mem_warnings_of_mem_duplicateWarnings {ss : List String} {t : Table}
    (ht : t ∈ (ofStatements ss).tables) {w : Warning} (hw : w ∈ duplicateWarnings t) :
    w ∈ (ofStatements ss).warnings := by
  obtain ⟨s, warnings, hread, hwarnings⟩ := exists_readTable_of_mem ht
  obtain ⟨-, tree, -, -, heq⟩ := readTable_eq_ok_some.1 hread
  refine hwarnings ?_
  rw [← heq]
  exact List.mem_append_right _ hw

/-- In a schema without warnings the unique groups of a table differ by their columns. -/
theorem nodup_names_unique {text : String} {t : Table} (ht : t ∈ (parse text).tables)
    (hclean : (parse text).isClean = true) : (t.keys.unique.map (List.map (·.name))).Nodup := by
  have hwarnings : (parse text).warnings = [] := by
    simp only [isClean, Bool.and_eq_true, List.isEmpty_iff] at hclean
    exact hclean.2
  have hnone : duplicateWarnings t = [] := by
    rw [List.eq_nil_iff_forall_not_mem]
    intro w hw
    have hmem := mem_warnings_of_mem_duplicateWarnings ht hw
    rw [← parse, hwarnings] at hmem
    cases hmem
  rw [← Keys.duplicates_eq_nil_iff]
  exact List.map_eq_nil_iff.1 hnone

end Schema

/-! ## Groups by their fields -/

/-- Groups of one column each that differ by their columns differ by their suffixes, if fields of
the table differ. -/
theorem nodup_groupSuffix_of_single {t : Table} (hfields : (t.columns.map (·.fieldName)).Nodup)
    {keys : List (List Column)} (hcolumns : ∀ key ∈ keys, ∀ c ∈ key, c ∈ t.columns)
    (hsingle : ∀ key ∈ keys, key.length = 1) (hnames : (keys.map (List.map (·.name))).Nodup) :
    (keys.map groupSuffix).Nodup := by
  rw [List.nodup_map_iff_inj_on (List.Nodup.of_map _ hnames)]
  intro key hkey other hother hsame
  obtain ⟨c, rfl⟩ := List.length_eq_one_iff.1 (hsingle key hkey)
  obtain ⟨d, rfl⟩ := List.length_eq_one_iff.1 (hsingle other hother)
  have hfield : c.fieldName = d.fieldName := by
    simpa [groupSuffix, Text.concat] using hsame
  rw [List.inj_on_of_nodup_map hfields (hcolumns _ hkey c (by simp)) (hcolumns _ hother d (by simp))
    hfield]

end GoScaffold
