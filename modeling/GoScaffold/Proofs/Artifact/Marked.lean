import GoScaffold.Artifact.Service
import GoScaffold.Proofs.Go.Interpreted
import GoScaffold.Proofs.Sql.Doubled

set_option autoImplicit false

/-! # Marks of deleted rows

The plain style writes the mark of a deleted row into a statement, as a string; the gorm style hands
it over as a Go literal, made from that string. The Go literal always stands for the value that was
set. The string stands for it just if the value has no backslash (`marks_agree_iff`), as quotes are
the only characters of the value that it writes twice. -/

namespace GoScaffold

open Go Sql

namespace LogicalDelete

/-- A value without the quotes around it. -/
def bare (value : String) : List Char := Text.trimWhere isQuote value.toList

theorem toList_literal {c : Column} (h : c.category.isNumeric = false) (value : String) :
    (literal c value).toList = doubled '\'' (bare value) := by
  simp [literal, h, bare, doubled]

end LogicalDelete

/-- The Go literal of a text with doubled quotes stands for the text. -/
theorem Service.literalValue?_goLiteral {sql : String} {cs : List Char}
    (h : sql.toList = doubled '\'' cs) :
    literalValue? (goLiteral sql).toList = some (utf8 cs) := by
  have hbetween : Text.between? '\'' '\'' sql.toList = some (double '\'' cs) :=
    Text.between?_eq_some.2 h
  rw [goLiteral, hbetween]
  dsimp only
  rw [undouble_double, String.toList_ofList, literalValue?_quoteChars]

/-- What the two styles render where rows are marked: the string stands in the statement of the data
access function for every key, and its Go literal in the call of the service. -/
theorem marked_code {t : Table} {o : Options} {c : Column} {d : LogicalDelete}
    (h : markColumn? t o.logicalDelete = some (c, d)) :
    (∀ key, .mark key c (d.deleteLiteral c) ∈ Accessor.deletions t o key
      ∧ .query [.fixed (Accessor.markSql t key c (d.deleteLiteral c))]
        ∈ Accessor.steps t o (.mark key c (d.deleteLiteral c)))
    ∧ ∃ found, Service.ormDeleteCall t o
        = found ++ ".Update(" ++ quote c.name ++ ", " ++ Service.goLiteral (d.deleteLiteral c)
          ++ ").Error" := by
  refine ⟨fun key => ⟨?_, ?_⟩, ?_⟩
  · rw [Accessor.deletions, h]
    exact List.mem_cons_self
  · simp [Accessor.steps, Accessor.executeByKey]
  · refine ⟨"p.DB.Model(&" ++ composite (Service.recordType t o) "" ++ ").Where("
      ++ Service.keyRecord t o ++ ")", ?_⟩
    have hclose : ").Update(" = ")" ++ ".Update(" := by decide
    rw [Service.ormDeleteCall, h]
    simp only [hclose, String.append_assoc]

/-- For a column that is not numeric, the Go literal stands for the value without the quotes around
it, whatever the value. The string of the plain style is whole if and only if the backslashes of that
value come in pairs that hold no quote, and it is whole and stands for the same value if and only if
there are no backslashes. -/
theorem marks_agree_iff {c : Column} (hc : c.category.isNumeric = false) (value : String) :
    literalValue? (Service.goLiteral (LogicalDelete.literal c value)).toList
        = some (utf8 (LogicalDelete.bare value))
      ∧ (IsLiteral (LogicalDelete.literal c value).toList
        ↔ backslashesPair '\'' (LogicalDelete.bare value) = true)
      ∧ (IsLiteral (LogicalDelete.literal c value).toList
          ∧ unquoteString (LogicalDelete.literal c value).toList = LogicalDelete.bare value
        ↔ '\\' ∉ LogicalDelete.bare value)
      ∧ ∀ (t : Table) (o : Options) (d : LogicalDelete),
        markColumn? t o.logicalDelete = some (c, d) → d.value = value →
          (∀ key, .mark key c (LogicalDelete.literal c value) ∈ Accessor.deletions t o key
            ∧ .query [.fixed (Accessor.markSql t key c (LogicalDelete.literal c value))]
              ∈ Accessor.steps t o (.mark key c (LogicalDelete.literal c value)))
          ∧ ∃ found, Service.ormDeleteCall t o
              = found ++ ".Update(" ++ quote c.name ++ ", "
                ++ Service.goLiteral (LogicalDelete.literal c value) ++ ").Error" := by
  have htext := LogicalDelete.toList_literal hc value
  refine ⟨Service.literalValue?_goLiteral htext, ?_, ?_, ?_⟩
  · rw [htext]
    exact isLiteral_doubled_iff _
  · rw [htext]
    exact unquoteString_doubled_iff _
  · rintro t o d hmark rfl
    exact marked_code hmark

/-- In a column of texts, with a value that holds quotes of both kinds. -/
theorem marks_agree_iff_quotes :
    Column.category ⟨"state", "VARCHAR", {}, none, none⟩ = .text
      ∧ IsLiteral (LogicalDelete.literal ⟨"state", "VARCHAR", {}, none, none⟩ "it's \"gone").toList
      ∧ literalValue? (Service.goLiteral
          (LogicalDelete.literal ⟨"state", "VARCHAR", {}, none, none⟩ "it's \"gone")).toList
        = some (utf8 "it's \"gone".toList) := by
  have hcategory : Column.category ⟨"state", "VARCHAR", {}, none, none⟩ = .text := by decide
  have hbare : LogicalDelete.bare "it's \"gone" = "it's \"gone".toList := by decide
  obtain ⟨hgo, -, hsame, -⟩ :=
    marks_agree_iff (c := ⟨"state", "VARCHAR", {}, none, none⟩) (by rw [hcategory]; rfl) "it's \"gone"
  rw [hbare] at hgo hsame
  exact ⟨hcategory, (hsame.2 (by decide)).1, hgo⟩

/-- The string of a value that ends in a backslash is not whole: the quote after the backslash does
not end it. -/
theorem not_marks_agree_backslash :
    ¬∀ (c : Column) (value : String), c.category.isNumeric = false →
      IsLiteral (LogicalDelete.literal c value).toList
        ∧ unquoteString (LogicalDelete.literal c value).toList = LogicalDelete.bare value
        ∧ literalValue? (Service.goLiteral (LogicalDelete.literal c value)).toList
          = some (utf8 (LogicalDelete.bare value)) := by
  intro h
  have hwhole := (h ⟨"a", "CHAR", {}, none, none⟩ "x\\" (by decide)).1
  exact absurd hwhole (by decide)

end GoScaffold
