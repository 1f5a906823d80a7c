import GoScaffold.Proofs.Sql.Ended
import GoScaffold.Schema.Basic

set_option autoImplicit false

/-! # Schemas in one batch

What a schema text holds is put together statement by statement, and no statement sees another. So
two texts in one batch give what each gives alone, wherever the first ends with a statement
(`Schema.parse_batch`): a declaration that does not parse is set aside and disturbs nothing around
it. -/

namespace GoScaffold.Schema

/-! ## Statement by statement -/

theorem append_assoc (a b c : Schema) : (a.append b).append c = a.append (b.append c) := by
  simp only [append, List.append_assoc]

theorem empty_append (a : Schema) : append {} a = a := by
  simp only [append, List.nil_append]

theorem ofStatements_append (ss rest : List String) :
    ofStatements (ss ++ rest) = (ofStatements ss).append (ofStatements rest) := by
  induction ss with
  | nil => rw [List.nil_append, ofStatements, empty_append]
  | cons s ss ih => rw [List.cons_append, ofStatements, ofStatements, ih, append_assoc]

theorem ofStatements_cons (s : String) (ss : List String) :
    ofStatements (s :: ss) = (ofStatement s).append (ofStatements ss) := rfl

/-- A declaration that does not parse is set aside. -/
theorem ofStatement_of_error {s : String} {e : SyntaxError} (h : parseTable s = .error e) :
    ofStatement s = { skipped := [e] } := by
  unfold parseTable at h
  unfold ofStatement
  cases hread : readTable s with
  | error f =>
    rw [hread] at h
    cases h
    rfl
  | ok found =>
    rw [hread] at h
    cases h

/-- A statement that declares no table holds nothing. -/
theorem ofStatement_of_none {s : String} (h : parseTable s = .ok none) : ofStatement s = {} := by
  unfold parseTable at h
  unfold ofStatement
  cases hread : readTable s with
  | error f =>
    rw [hread] at h
    cases h
  | ok found =>
    cases found with
    | none => rfl
    | some entry =>
      rw [hread] at h
      cases h

/-- Every table is read from a statement, and its warnings are among those of the schema. -/
theorem exists_readTable_of_mem {ss : List String} {t : Table} (h : t ∈ (ofStatements ss).tables) :
    ∃ s warnings, readTable s = .ok (some (t, warnings)) ∧ warnings ⊆ (ofStatements ss).warnings := by
  induction ss with
  | nil => cases h
  | cons s ss ih =>
    rw [ofStatements_cons] at h
    rcases List.mem_append.1 h with hhere | hlater
    · unfold ofStatement at hhere
      rcases hread : readTable s with failure | _ | ⟨u, warnings⟩
      · simp [hread] at hhere
      · simp [hread] at hhere
      · obtain rfl : t = u := by simpa [hread] using hhere
        refine ⟨s, warnings, hread, ?_⟩
        rw [ofStatements_cons, ofStatement, hread]
        exact List.subset_append_left ..
    · obtain ⟨u, warnings, hread, hwarnings⟩ := ih hlater
      exact ⟨u, warnings, hread, List.subset_append_of_subset_right _ hwarnings⟩

/-- Every statement that declares a table gives one, or is set aside. -/
theorem ofStatement_count (s : String) :
    (ofStatement s).tables.length + (ofStatement s).skipped.length
      = if Sql.isTableDeclaration s.toList then 1 else 0 := by
  unfold ofStatement readTable
  by_cases hdeclares : Sql.isTableDeclaration s.toList = true
  · simp only [hdeclares]
    cases declarationTree s.toList with
    | error failure => rfl
    | ok found => cases found <;> rfl
  · simp [hdeclares]

theorem ofStatements_count (ss : List String) :
    (ofStatements ss).tables.length + (ofStatements ss).skipped.length
      = ss.countP fun s => Sql.isTableDeclaration s.toList := by
  induction ss with
  | nil => rfl
  | cons s ss ih =>
    have hs := ofStatement_count s
    rw [ofStatements_cons, List.countP_cons, ← ih, ← hs]
    simp only [append, List.length_append]
    omega

/-! ## Batches -/

/-- The statements of a schema text. -/
def statementsOf (text : String) : List String :=
  (Sql.statements text.toList).map String.ofList

/-- A text that goes on after the `;` of a statement gives the tables, the skipped errors and the
warnings of its two parts, one after the other, where no comment is removed from it. Wherever a
statement stands that gives no table, the statements before and after it give what they give without
it, and it adds neither table nor warning: its error, if it does not parse, and nothing if it
declares none. The tables and the skipped errors are as many as the statements that declare a
table. -/
theorem parse_batch (a b : String)
    (plain : Sql.stripComments (a ++ b).toList = (a ++ b).toList) (ended : Sql.IsEnded a.toList) :
    parse (a ++ b) = (parse a).append (parse b)
      ∧ (∀ text before s after, statementsOf text = before ++ s :: after →
          (∀ e, parseTable s = .error e →
            parse text = ⟨(ofStatements before).tables ++ (ofStatements after).tables,
              (ofStatements before).skipped ++ e :: (ofStatements after).skipped,
              (ofStatements before).warnings ++ (ofStatements after).warnings⟩)
          ∧ (parseTable s = .ok none →
            parse text = (ofStatements before).append (ofStatements after)))
      ∧ ∀ text, (parse text).tables.length + (parse text).skipped.length
          = (statementsOf text).countP fun s => Sql.isTableDeclaration s.toList := by
  refine ⟨?_, ?_, fun text => ofStatements_count (statementsOf text)⟩
  · rw [String.toList_append] at plain
    rw [parse, parse, parse, String.toList_append, Sql.statements_append plain ended,
      List.map_append, ofStatements_append]
  · intro text before s after htext
    have hparse : parse text
        = (ofStatements before).append ((ofStatement s).append (ofStatements after)) := by
      rw [← ofStatements_cons, ← ofStatements_append, ← htext]
      rfl
    constructor
    · intro e he
      rw [hparse, ofStatement_of_error he]
      simp [append]
    · intro hnone
      rw [hparse, ofStatement_of_none hnone, empty_append]

/-- A table with `;` in the name of a column, and a declaration that does not parse. -/
def firstBatch : String := "CREATE TABLE t (`;` INT);\nCREATE TABLE b (;"

/-- A statement that declares no table, and a table. -/
def secondBatch : String := "DROP TABLE t;\nCREATE TABLE u (c INT)"

theorem parse_batch_broken :
    Sql.stripComments (firstBatch ++ secondBatch).toList = (firstBatch ++ secondBatch).toList
      ∧ Sql.IsEnded firstBatch.toList
      ∧ parse (firstBatch ++ secondBatch) = (parse firstBatch).append (parse secondBatch) := by
  have plain : Sql.stripComments (firstBatch ++ secondBatch).toList
      = (firstBatch ++ secondBatch).toList := by decide
  have ended : Sql.IsEnded firstBatch.toList :=
    ⟨firstBatch.toList.dropLast, by decide, by decide⟩
  exact ⟨plain, ended, (parse_batch firstBatch secondBatch plain ended).1⟩

end GoScaffold.Schema
