import GoScaffold.Proofs.Text.Trimming
import GoScaffold.Sql.Quoted

set_option autoImplicit false

/-! # Quoting and back

What a quoted identifier or string literal spells is what was quoted. -/

namespace GoScaffold

namespace Sql

open Text

theorem undouble_eq_self {q : Char} {cs : List Char} (h : q ∉ cs) : undouble q cs = cs := by
  fun_induction undouble q cs with
  | case1 => rfl
  | case2 c => rfl
  | case3 c d cs hcd ih => exact absurd (by simp [hcd.1]) h
  | case4 c d cs hcd ih => rw [ih fun hd => h (List.mem_cons_of_mem _ hd)]

theorem unquoteIdentifier_backticked {name : List Char} (h : '`' ∉ name) :
    unquoteIdentifier ('`' :: (name ++ ['`'])) = name := by
  have htrim : trimBlank ('`' :: (name ++ ['`'])) = '`' :: (name ++ ['`']) :=
    trimWhere_eq_self name (by decide) (by decide)
  have hbetween : between? '`' '`' ('`' :: (name ++ ['`'])) = some name :=
    between?_eq_some.2 rfl
  simp only [unquoteIdentifier, htrim, hbetween, undouble_eq_self h]

/-! ## String literals -/

theorem double_eq_self {q : Char} {cs : List Char} (h : q ∉ cs) : double q cs = cs := by
  induction cs with
  | nil => rfl
  | cons c cs ih =>
    simp only [List.mem_cons, not_or] at h
    have ih := ih h.2
    simp only [double, List.flatMap_cons, if_neg (Ne.symm h.1)] at ih ⊢
    rw [ih]
    rfl

theorem escape_eq_double {q : Char} {cs : List Char} (h : '\\' ∉ cs) :
    escape q cs = double q cs := by
  rw [escape, double_eq_self h]

theorem escape_cons {q : Char} (hq : q ≠ '\\') (c : Char) (cs : List Char) :
    escape q (c :: cs) = if c = q ∨ c = '\\' then c :: c :: escape q cs else c :: escape q cs := by
  by_cases hback : c = '\\'
  · simp [escape, double, hback, Ne.symm hq]
  · by_cases hc : c = q <;> simp [escape, double, hback, hc, hq]

/-- Decoding undoes the escapes, whatever runs of quotes and backslashes the value has. -/
theorem decodeString_escape {q : Char} (hq : q ≠ '\\') (cs : List Char) :
    decodeString q (escape q cs) = cs := by
  induction cs with
  | nil => rfl
  | cons c cs ih =>
    rw [escape_cons hq]
    by_cases hback : c = '\\'
    · have hself : unescape '\\' = '\\' := by decide
      rw [if_pos (.inr hback), hback, decodeString, if_pos rfl, hself, ih]
    by_cases hc : c = q
    · rw [if_pos (.inl hc), hc, decodeString, if_neg hq, if_pos ⟨rfl, rfl⟩, ih]
    -- a plain character is passed over alone, and the decoder looks at the one after it
    · rw [if_neg (not_or.2 ⟨hc, hback⟩)]
      cases hrest : escape q cs with
      | nil =>
        rw [hrest] at ih
        simp [decodeString, ← ih]
      | cons d ds => rw [decodeString, if_neg hback, if_neg fun hcd => hc hcd.1, ← hrest, ih]

theorem unquoteString_literal {q : Char} (hq : q = '\'' ∨ q = '"') (cs : List Char) :
    unquoteString (literal q cs) = cs := by
  have hplain : q ≠ '\\' ∧ isBlank q = false := by rcases hq with rfl | rfl <;> decide
  have htrim : trimBlank (literal q cs) = literal q cs :=
    trimWhere_eq_self _ hplain.2 hplain.2
  have hbetween : between? q q (literal q cs) = some (escape q cs) := between?_eq_some.2 rfl
  rw [unquoteString, htrim]
  simp only [literal] at hbetween ⊢
  rw [if_pos hq, hbetween]
  exact decodeString_escape hplain.1 cs

end Sql

end GoScaffold
