import GoScaffold.Grammar.Scan
import GoScaffold.Text.Span

set_option autoImplicit false

/-! # What capitals keep

Raising a text to ASCII capitals changes lower-case letters into capitals and nothing else. So it
keeps every width, and every class of characters that is blind to the case of letters: white space,
quotes and the marks of comments on the one hand, the characters of identifiers on the other. -/

namespace GoScaffold.Text

/-! ## Letters and digits by their codes -/

theorem isDigit_iff {c : Char} : c.isDigit = true ↔ 48 ≤ c.toNat ∧ c.toNat ≤ 57 :=
  Char.isDigit_iff_toNat

theorem isUpper_iff {c : Char} : c.isUpper = true ↔ 65 ≤ c.toNat ∧ c.toNat ≤ 90 :=
  decide_eq_true_iff

theorem isLower_iff {c : Char} : c.isLower = true ↔ 97 ≤ c.toNat ∧ c.toNat ≤ 122 :=
  Bool.and_eq_true_iff.trans (and_congr decide_eq_true_iff decide_eq_true_iff)

theorem isAlpha_iff {c : Char} :
    c.isAlpha = true ↔ (65 ≤ c.toNat ∧ c.toNat ≤ 90) ∨ (97 ≤ c.toNat ∧ c.toNat ≤ 122) := by
  rw [← isUpper_iff, ← isLower_iff]
  exact Bool.or_eq_true_iff

theorem isAlphanum_iff {c : Char} :
    c.isAlphanum = true ↔ (48 ≤ c.toNat ∧ c.toNat ≤ 57) ∨ (65 ≤ c.toNat ∧ c.toNat ≤ 90)
      ∨ (97 ≤ c.toNat ∧ c.toNat ≤ 122) := by
  rw [Char.isAlphanum, Bool.or_eq_true, isAlpha_iff, isDigit_iff, or_comm]

/-! ## Capitals -/

theorem toUpper_of_isLower {c : Char} (h : c.isLower = true) : c.toUpper.toNat = c.toNat - 32 := by
  have hrange := Bool.and_eq_true_iff.1 h
  have hmoved : c.toUpper = _ := dif_pos ⟨of_decide_eq_true hrange.1, of_decide_eq_true hrange.2⟩
  have hval : c.toUpper.val = c.val + ('A'.val - 'a'.val) := by rw [hmoved]
  obtain ⟨hlo, hhi⟩ := isLower_iff.1 h
  show c.toUpper.val.toNat = _
  rw [hval, UInt32.toNat_add]
  show (c.toNat + 4294967264) % 4294967296 = _
  omega

theorem toUpper_of_not_isLower {c : Char} (h : c.isLower = false) : c.toUpper = c := by
  refine dif_neg fun hrange => ?_
  have hlower : c.isLower = true :=
    Bool.and_eq_true_iff.2 ⟨decide_eq_true hrange.1, decide_eq_true hrange.2⟩
  rw [h] at hlower
  cases hlower

/-- A character is kept unless it is a lower-case letter; those move down by 32. -/
theorem toUpper_eq_or (c : Char) :
    c.toUpper = c ∨ (97 ≤ c.toNat ∧ c.toNat ≤ 122 ∧ c.toUpper.toNat = c.toNat - 32) := by
  cases h : c.isLower with
  | false => exact Or.inl (toUpper_of_not_isLower h)
  | true =>
    obtain ⟨hlo, hhi⟩ := isLower_iff.1 h
    exact Or.inr ⟨hlo, hhi, toUpper_of_isLower h⟩

/-- The letters are raised to the capitals. -/
theorem isUpper_toUpper (c : Char) : c.toUpper.isUpper = c.isAlpha := by
  rw [Bool.eq_iff_iff, isUpper_iff, isAlpha_iff]
  cases h : c.isLower with
  | false =>
    have hrange := mt isLower_iff.2 (Bool.eq_false_iff.1 h)
    rw [toUpper_of_not_isLower h]
    omega
  | true =>
    have hrange := isLower_iff.1 h
    rw [toUpper_of_isLower h]
    omega

/-- Only `d` itself is raised to `d`, unless `d` is a letter. -/
theorem toUpper_eq_iff {c d : Char} (hd : d.isAlpha = false) : c.toUpper = d ↔ c = d := by
  rw [Bool.eq_false_iff, ne_eq, isAlpha_iff] at hd
  rcases toUpper_eq_or c with h | ⟨hlo, hhi, h⟩
  · rw [h]
  · constructor
    · rintro rfl
      omega
    · rintro rfl
      omega

theorem toUpper_of_isDigit {c : Char} (h : c.isDigit = true) : c.toUpper = c := by
  rw [isDigit_iff] at h
  rcases toUpper_eq_or c with hc | ⟨hlo, -, -⟩
  · exact hc
  · omega

@[simp] theorem isAlpha_toUpper (c : Char) : c.toUpper.isAlpha = c.isAlpha := by
  rw [Bool.eq_iff_iff, isAlpha_iff, isAlpha_iff]
  rcases toUpper_eq_or c with h | ⟨hlo, hhi, h⟩
  · rw [h]
  · omega

@[simp] theorem isAlphanum_toUpper (c : Char) : c.toUpper.isAlphanum = c.isAlphanum := by
  rw [Bool.eq_iff_iff, isAlphanum_iff, isAlphanum_iff]
  rcases toUpper_eq_or c with h | ⟨hlo, hhi, h⟩
  · rw [h]
  · omega

@[simp] theorem utf8Size_toUpper (c : Char) : c.toUpper.utf8Size = c.utf8Size := by
  rcases toUpper_eq_or c with h | ⟨hlo, hhi, h⟩
  · rw [h]
  · have hsize {d : Char} (hd : d.toNat ≤ 127) : d.utf8Size = 1 := by
      have : d.val ≤ 127 := by simpa [UInt32.le_iff_toNat_le] using hd
      simp [Char.utf8Size, this]
    rw [hsize (by omega), hsize (by omega)]

@[simp] theorem width_raise (cs : List Char) : width (raise cs) = width cs := by
  induction cs with
  | nil => rfl
  | cons c cs ih => simpa [raise, width] using ih

@[simp] theorem raise_nil : raise [] = [] := rfl

@[simp] theorem raise_cons (c : Char) (cs : List Char) : raise (c :: cs) = c.toUpper :: raise cs :=
  rfl

/-- What is kept by raising is kept in a text. -/
theorem raise_eq_self {cs : List Char} (h : ∀ c ∈ cs, c.toUpper = c) : raise cs = cs := by
  rw [raise, List.map_congr_left h, List.map_id']

theorem mem_raise_iff {d : Char} (hd : d.isAlpha = false) {cs : List Char} :
    d ∈ raise cs ↔ d ∈ cs := by
  simp [raise, toUpper_eq_iff hd]

end GoScaffold.Text

namespace GoScaffold.Grammar.Scan

open Text

@[simp] theorem isSpace_toUpper (c : Char) : isSpace c.toUpper = isSpace c := by
  rw [Bool.eq_iff_iff]
  simp only [isSpace, Bool.or_eq_true, beq_iff_eq, toUpper_eq_iff (d := ' ') rfl,
    toUpper_eq_iff (d := '\t') rfl, toUpper_eq_iff (d := '\n') rfl, toUpper_eq_iff (d := '\r') rfl]

@[simp] theorem isIdentChar_toUpper (c : Char) : isIdentChar c.toUpper = isIdentChar c := by
  have hcode : 0x80 ≤ c.toUpper.toNat ↔ 0x80 ≤ c.toNat := by
    rcases toUpper_eq_or c with h | ⟨hlo, hhi, h⟩
    · rw [h]
    · omega
  rw [Bool.eq_iff_iff]
  simp only [isIdentChar, Bool.or_eq_true, beq_iff_eq, decide_eq_true_eq, isAlphanum_toUpper,
    toUpper_eq_iff (d := '_') rfl, toUpper_eq_iff (d := '$') rfl, hcode]

end GoScaffold.Grammar.Scan
