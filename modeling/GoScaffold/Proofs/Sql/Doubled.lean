import GoScaffold.Grammar.Scan
import GoScaffold.Proofs.Sql.Spelling

set_option autoImplicit false

/-! # Strings whose quotes alone are doubled

A text whose quotes are written twice, between quotes, is a string only as far as its backslashes let
it: the grammar passes over a backslash together with the character after it. So the string ends
where it should just if the backslashes come in pairs with something else than a quote
(`isLiteral_doubled_iff`), and then it stands for fewer characters than it was made from, unless
there are no backslashes at all (`unquoteString_doubled_iff`). -/

namespace GoScaffold.Sql

open Grammar

variable {q : Char}

/-- Whether a text is one string literal to its last character. -/
def IsLiteral (cs : List Char) : Prop := Scan.stringLiteral cs = some (cs, [])

instance (cs : List Char) : Decidable (IsLiteral cs) :=
  inferInstanceAs (Decidable (Scan.stringLiteral cs = some (cs, [])))

/-- A text between quotes, its quotes written twice. -/
def doubled (q : Char) (cs : List Char) : List Char := q :: (double q cs ++ [q])

/-- Whether each backslash has a character other than `q` after it, which it makes a pair with; pairs
are taken from the left. -/
def backslashesPair (q : Char) : List Char → Bool
  | [] => true
  | [c] => c != '\\'
  | c :: d :: cs =>
    if c = '\\' then d != q && backslashesPair q cs else backslashesPair q (d :: cs)

theorem backslashesPair_of_not_mem {cs : List Char} (h : '\\' ∉ cs) : backslashesPair q cs = true := by
  fun_induction backslashesPair q cs with
  | case1 => rfl
  | case2 c => exact bne_iff_ne.2 fun hc => h (hc ▸ List.mem_cons_self)
  | case3 d cs => exact absurd List.mem_cons_self h
  | case4 c d cs hc ih => exact ih fun hd => h (List.mem_cons_of_mem _ hd)

/-! ## Where the string ends -/

theorem behind_eq_whole_iff {c : Char} {cs : List Char} {cut : Option (List Char × List Char)} :
    behind c cut = some (c :: cs, []) ↔ cut = some (cs, []) := by
  simp [behind]

theorem stringEnd_cons {c : Char} (hback : c ≠ '\\') (hq : c ≠ q) (cs : List Char) :
    Scan.stringEnd q (c :: cs) = behind c (Scan.stringEnd q cs) := by
  cases cs with
  | nil => simp [Scan.stringEnd, hq, behind]
  | cons d cs => rw [Scan.stringEnd, if_neg hback, if_neg hq]

theorem stringEnd_backslash (d : Char) (cs : List Char) :
    Scan.stringEnd q ('\\' :: d :: cs) = behind '\\' (behind d (Scan.stringEnd q cs)) := by
  rw [Scan.stringEnd, if_pos rfl]

theorem stringEnd_pair (hq : q ≠ '\\') (cs : List Char) :
    Scan.stringEnd q (q :: q :: cs) = behind q (behind q (Scan.stringEnd q cs)) := by
  rw [Scan.stringEnd, if_neg hq, if_pos rfl, if_pos rfl]

/-- A quote that has lost the first of its pair ends the string too early, or never. -/
theorem stringEnd_doubled (hq : q ≠ '\\') (cs : List Char) :
    Scan.stringEnd q (doubled q cs) ≠ some (doubled q cs, []) := by
  induction cs with
  | nil =>
    rw [doubled, double, List.flatMap_nil, List.nil_append, stringEnd_pair hq]
    simp [Scan.stringEnd, behind]
  | cons c cs ih =>
    rw [doubled]
    by_cases hc : c = q
    · rw [hc, double_cons_self, List.cons_append, List.cons_append, stringEnd_pair hq]
      exact fun h => ih (behind_eq_whole_iff.1 (behind_eq_whole_iff.1 h))
    · rw [double_cons_of_ne hc, List.cons_append, Scan.stringEnd, if_neg hq, if_pos rfl, if_neg hc]
      simp

theorem stringEnd_double_iff (hq : q ≠ '\\') (cs : List Char) :
    Scan.stringEnd q (double q cs ++ [q]) = some (double q cs ++ [q], [])
      ↔ backslashesPair q cs = true := by
  fun_induction backslashesPair q cs with
  | case1 => simp [double, Scan.stringEnd]
  | case2 c =>
    by_cases hback : c = '\\'
    · rw [hback, double_cons_of_ne (Ne.symm hq)]
      simp [double, Scan.stringEnd, behind]
    by_cases hc : c = q
    · rw [hc, double_cons_self, List.cons_append, List.cons_append, stringEnd_pair hq,
        behind_eq_whole_iff, behind_eq_whole_iff]
      simp [double, Scan.stringEnd, hq]
    · rw [double_cons_of_ne hc, List.cons_append, stringEnd_cons hback hc, behind_eq_whole_iff]
      simp [double, Scan.stringEnd, hback]
  | case3 d cs ih =>
    rw [double_cons_of_ne (Ne.symm hq)]
    by_cases hd : d = q
    -- The backslash takes the first quote of a pair.
    · rw [hd, double_cons_self, List.cons_append, List.cons_append, List.cons_append,
        stringEnd_backslash, behind_eq_whole_iff, behind_eq_whole_iff]
      exact iff_of_false (stringEnd_doubled hq cs) (by simp)
    · rw [double_cons_of_ne hd, List.cons_append, List.cons_append, stringEnd_backslash,
        behind_eq_whole_iff, behind_eq_whole_iff, ih]
      simp [hd]
  | case4 c d cs hback ih =>
    by_cases hc : c = q
    · rw [hc, double_cons_self, List.cons_append, List.cons_append, stringEnd_pair hq,
        behind_eq_whole_iff, behind_eq_whole_iff, ih]
    · rw [double_cons_of_ne hc, List.cons_append, stringEnd_cons hback hc, behind_eq_whole_iff, ih]

theorem stringLiteral_quote (cs : List Char) :
    Scan.stringLiteral ('\'' :: cs) = behind '\'' (Scan.stringEnd '\'' cs) := by
  have hsingle : Scan.word ['\''] ('\'' :: cs) = some (['\''], cs) := rfl
  have hother : Scan.word ['"'] ('\'' :: cs) = none := rfl
  rw [Scan.stringLiteral, Scan.either, Scan.chain, Scan.chain, hsingle, hother, Option.or_none]
  rfl

/-- A text with doubled quotes is one string literal if and only if its backslashes come in pairs
that hold no quote. -/
theorem isLiteral_doubled_iff (cs : List Char) :
    IsLiteral (doubled '\'' cs) ↔ backslashesPair '\'' cs = true := by
  rw [IsLiteral, doubled, stringLiteral_quote, behind_eq_whole_iff, stringEnd_double_iff (by decide)]

/-! ## What it stands for -/

theorem decodeString_cons {c : Char} (hback : c ≠ '\\') (hq : c ≠ q) (cs : List Char) :
    decodeString q (c :: cs) = c :: decodeString q cs := by
  cases cs with
  | nil => rfl
  | cons d cs => rw [decodeString, if_neg hback, if_neg fun h => hq h.1]

/-- Every backslash of the string is lost, or stands for two. -/
theorem length_decodeString_double (hq : q ≠ '\\') {cs : List Char} (h : backslashesPair q cs = true) :
    (decodeString q (double q cs)).length + (if '\\' ∈ cs then 1 else 0) ≤ cs.length := by
  fun_induction backslashesPair q cs with
  | case1 => simp [double, decodeString]
  | case2 c =>
    have hback : c ≠ '\\' := by simpa using h
    have hlength : (decodeString q (double q [c])).length = 1 := by
      by_cases hc : c = q
      · rw [hc, double_cons_self, decodeString, if_neg hq, if_pos ⟨rfl, rfl⟩]
        rfl
      · rw [double_cons_of_ne hc]
        rfl
    simp [hlength, Ne.symm hback]
  | case3 d cs ih =>
    simp only [Bool.and_eq_true, bne_iff_ne] at h
    have ih := ih h.2
    rw [double_cons_of_ne (Ne.symm hq), double_cons_of_ne h.1, decodeString, if_pos rfl,
      if_pos List.mem_cons_self]
    simp only [List.length_cons]
    omega
  | case4 c d cs hback ih =>
    have ih := ih h
    have hmem : '\\' ∈ c :: d :: cs ↔ '\\' ∈ d :: cs := by simp [Ne.symm hback]
    have hlength : (decodeString q (double q (c :: d :: cs))).length
        = (decodeString q (double q (d :: cs))).length + 1 := by
      by_cases hc : c = q
      · rw [hc, double_cons_self, decodeString, if_neg hq, if_pos ⟨rfl, rfl⟩]
        rfl
      · rw [double_cons_of_ne hc, decodeString_cons hback hc]
        rfl
    simp only [hmem, hlength, List.length_cons] at ih ⊢
    omega

theorem unquoteString_doubled (cs : List Char) :
    unquoteString (doubled '\'' cs) = decodeString '\'' (double '\'' cs) := by
  have htrim : Text.trimBlank (doubled '\'' cs) = doubled '\'' cs :=
    Text.trimWhere_eq_self _ (by decide) (by decide)
  have hbetween : Text.between? '\'' '\'' (doubled '\'' cs) = some (double '\'' cs) :=
    Text.between?_eq_some.2 rfl
  rw [unquoteString, htrim, doubled]
  rw [doubled] at hbetween
  dsimp only
  rw [if_pos (Or.inl rfl), hbetween, Option.getD_some]

/-- A text with doubled quotes is one string literal that stands for the text if and only if the text
has no backslash. -/
theorem unquoteString_doubled_iff (cs : List Char) :
    IsLiteral (doubled '\'' cs) ∧ unquoteString (doubled '\'' cs) = cs ↔ '\\' ∉ cs := by
  rw [isLiteral_doubled_iff, unquoteString_doubled]
  constructor
  · rintro ⟨hpair, hsame⟩ hback
    have hlength := length_decodeString_double (by decide) hpair
    rw [hsame, if_pos hback] at hlength
    omega
  · intro hback
    refine ⟨backslashesPair_of_not_mem hback, ?_⟩
    rw [← escape_eq_double hback, decodeString_escape (by decide)]

end GoScaffold.Sql
