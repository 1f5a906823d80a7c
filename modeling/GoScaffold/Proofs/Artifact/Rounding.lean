import Mathlib.Data.List.Basic
import GoScaffold.Artifact.Access
import GoScaffold.Proofs.Artifact.Keys

set_option autoImplicit false

/-! # Rounding is decided for all tables at once

A file truncates times only if some table has any, and all its tables are rendered with that decision.
Only values of columns that hold times depend on it, and a table with such a column settles it. So each
table is rendered as if the rounding of the options were given to it (`Access.tableCode_tableOptions`). -/

namespace GoScaffold

section

variable {tables : List Table} {t : Table}

theorem Bound.ofColumn_tableOptions (ht : t ∈ tables) {c : Column} (hc : c ∈ t.columns) (o : Options) :
    ofColumn (Access.tableOptions tables o) c = ofColumn o c := by
  rw [ofColumn, ofColumn]
  cases htime : c.isTemporal with
  | false => rfl
  | true =>
    have hsome : tables.any (·.hasTimes) = true :=
      List.any_eq_true.2 ⟨t, ht, List.any_eq_true.2 ⟨c, hc, htime⟩⟩
    simp only [Access.tableOptions, hsome, if_true]
    cases o.rounding <;> rfl

namespace Accessor

theorem supplies_tableOptions (ht : t ∈ tables) {columns : List Column}
    (hcolumns : ∀ c ∈ columns, c ∈ t.columns) (o : Options) (g : Gathered) (item : Column → String) :
    supplies (Access.tableOptions tables o) g item columns = supplies o g item columns :=
  List.map_congr_left fun c hc => by rw [Bound.ofColumn_tableOptions ht (hcolumns c hc)]

/-- A function binds values of columns of its table alone. -/
theorem steps_tableOptions (ht : t ∈ tables) {o : Options} {a : Accessor} (ha : a ∈ ofTable t o) :
    a.steps t (Access.tableOptions tables o) = a.steps t o := by
  have hbound {columns : List Column} (hcolumns : ∀ c ∈ columns, c ∈ t.columns) :
      columns.map (Bound.ofColumn (Access.tableOptions tables o)) = columns.map (Bound.ofColumn o) :=
    List.map_congr_left fun c hc => Bound.ofColumn_tableOptions ht (hcolumns c hc) o
  have hkey {key : List Column} (h : a.key? = some key) :=
    hbound (isKey_of_mem_ofTable ha h).subset
  cases a with
  | create =>
    have hpart (p : Column → Bool) : ∀ c ∈ (insertable t).filter p, c ∈ t.columns :=
      fun c hc => (List.mem_filter.1 (List.mem_filter.1 hc).1).1
    simp only [steps, List.partition_eq_filter_filter, hbound (hpart _),
      supplies_tableOptions ht (hpart _)]
  | update key =>
    have hupdatable : ∀ c ∈ updatable t key, c ∈ t.columns :=
      fun c hc => (List.mem_filter.1 (List.mem_filter.1 hc).1).1
    simp only [steps, hkey rfl, supplies_tableOptions ht hupdatable]
  | list order => simp only [steps, supplies_tableOptions ht fun c hc => hc]
  | get key | listBy key order => simp only [steps, hkey rfl]
  | delete key | mark key c literal | restore key c literal =>
    simp only [steps, executeByKey, hkey rfl]

end Accessor

namespace Access

/-- The part of a file for one of its tables is what the options alone make of the table. -/
theorem tableCode_tableOptions (ht : t ∈ tables) (o : Options) :
    tableCode t (tableOptions tables o) = tableCode t o := by
  have hcode : ∀ a ∈ Accessor.ofTable t o, a.code t (tableOptions tables o) = a.code t o := by
    intro a ha
    rw [Accessor.code, Accessor.code, Accessor.steps_tableOptions ht ha]
    rfl
  have haccessors : Accessor.ofTable t (tableOptions tables o) = Accessor.ofTable t o := rfl
  rw [tableCode, tableCode, haccessors, List.flatMap_congr hcode]

theorem body_file (tables : List Table) (o : Options) (today : String) :
    (file tables o today).body
      = preamble o.convention (rounds tables o) ++ tables.flatMap (tableCode · o) :=
  congrArg (_ ++ ·) (List.flatMap_congr fun _ ht => tableCode_tableOptions ht o)

end Access

end

end GoScaffold
