import GoScaffold.Artifact.Accessor
import GoScaffold.Proofs.Schema.Keys

set_option autoImplicit false

/-! # Keys of accessors

The functions that find rows by a group are rendered for the groups that count as keys of the table.
Groups that are empty and places without columns are left out there, so such a function has a key: some
columns of the table, at least one. -/

namespace GoScaffold

namespace Accessor

/-- The group that a function finds rows by. -/
def key? : Accessor → Option (List Column)
  | .create | .list _ => none
  | .update key | .get key | .listBy key _ | .delete key | .mark key _ _ | .restore key _ _ => some key

/-- A function that deletes by a key removes the row, or marks it or brings it back. -/
theorem cases_of_mem_deletions {t : Table} {o : Options} {key : List Column} {a : Accessor}
    (h : a ∈ deletions t o key) :
    a = .delete key ∨ (∃ c literal, a = .mark key c literal) ∨ ∃ c literal, a = .restore key c literal := by
  unfold deletions at h
  cases hmark : markColumn? t o.logicalDelete with
  | none =>
    rw [hmark, List.mem_singleton] at h
    exact .inl h
  | some mark =>
    obtain ⟨c, d⟩ := mark
    rw [hmark] at h
    rcases List.mem_cons.1 h with rfl | h
    · exact .inr (.inl ⟨c, _, rfl⟩)
    · cases hrestore : d.restoreLiteral? c with
      | none => simp [hrestore] at h
      | some literal =>
        rw [hrestore, List.mem_singleton] at h
        exact .inr (.inr ⟨c, literal, h⟩)

theorem key?_of_mem_deletions {t : Table} {o : Options} {key : List Column} {a : Accessor}
    (h : a ∈ deletions t o key) : a.key? = some key := by
  rcases cases_of_mem_deletions h with rfl | ⟨c, literal, rfl⟩ | ⟨c, literal, rfl⟩ <;> rfl

/-- A function that finds rows by a group has a key. -/
theorem isKey_of_mem_ofTable {t : Table} {o : Options} {a : Accessor} (ha : a ∈ ofTable t o)
    {key : List Column} (hkey : a.key? = some key) : t.IsKey key := by
  unfold ofTable at ha
  simp only [List.mem_append, List.mem_flatMap, List.mem_cons, List.mem_map, List.not_mem_nil,
    or_false] at ha
  rcases ha with ((rfl | ⟨group, hgroup, rfl | rfl⟩) | ⟨order, -, ⟨group, hgroup, rfl⟩ | rfl⟩)
    | ⟨group, hgroup, hdelete⟩
  · cases hkey
  · cases hkey
    exact Table.isKey_of_mem_unique hgroup
  · cases hkey
    exact Table.isKey_of_mem_unique hgroup
  · cases hkey
    exact Table.isKey_of_mem_resolve hgroup
  · cases hkey
  · rw [key?_of_mem_deletions hdelete] at hkey
    cases hkey
    exact Table.isKey_of_mem_unique hgroup

end Accessor

end GoScaffold
