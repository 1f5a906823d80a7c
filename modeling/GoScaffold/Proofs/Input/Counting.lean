import GoScaffold.Proofs.Input.Selected

set_option autoImplicit false

/-! # Counts that are checked

Selecting computes two counts in words of 64 bits: how many lines stand before the range, and how many
it has. Where sums and differences are checked, one that is no word stops the program
(`selectChecked?`). The differences are always words, since a range begins at line one or later and does
not end before it begins. The sum is not where the range ends at the greatest line number there is, so
such a range is read but cannot be selected (`selectChecked?_of_parse`).

Where nothing is checked, the sum wraps and the difference after it wraps back: the lines that are
selected are the right ones for every range. -/

namespace GoScaffold

/-! ## Sums and differences of words -/

/-- The sum of two words, if it is a word. -/
def checkedAdd? (a b : UInt64) : Option UInt64 :=
  if a.toNat + b.toNat < UInt64.size then some (a + b) else none

/-- The difference of two words, if it is a word. -/
def checkedSub? (a b : UInt64) : Option UInt64 := if b ≤ a then some (a - b) else none

theorem checkedAdd?_eq_some_iff {a b c : UInt64} :
    checkedAdd? a b = some c ↔ c.toNat = a.toNat + b.toNat := by
  have hc := c.toNat_lt
  have hsize : UInt64.size = 2 ^ 64 := rfl
  rw [checkedAdd?]
  split
  · next hfits =>
    rw [Option.some_inj, ← UInt64.toNat_inj, UInt64.toNat_add]
    omega
  · next hwide =>
    refine iff_of_false (by simp) fun hsum => ?_
    omega

theorem checkedSub?_eq_some_iff {a b c : UInt64} :
    checkedSub? a b = some c ↔ c.toNat + b.toNat = a.toNat := by
  rw [checkedSub?]
  split
  · next hle =>
    have hle' := UInt64.le_iff_toNat_le.1 hle
    rw [Option.some_inj, ← UInt64.toNat_inj, UInt64.toNat_sub_of_le _ _ hle]
    omega
  · next hle =>
    rw [UInt64.le_iff_toNat_le] at hle
    refine iff_of_false (by simp) fun hsum => ?_
    omega

namespace LineRange

open Text

/-! ## Selecting with checks -/

/-- What the range selects where sums and differences are checked in the order in which they are
computed; nothing where one of them is no word. -/
def selectChecked? (r : LineRange) (text : List Char) : Option (List Char) := do
  let before ← checkedSub? r.first 1
  let next ← checkedAdd? r.last 1
  let count ← checkedSub? next r.first
  return unlines (((lines text).drop before.toNat).take count.toNat)

theorem checkedSub?_first (r : LineRange) : checkedSub? r.first 1 = some r.before := by
  have hpos := r.first_pos
  rw [checkedSub?_eq_some_iff, toNat_before, UInt64.toNat_one]
  omega

theorem checkedSub?_next {r : LineRange} {next : UInt64} (h : checkedAdd? r.last 1 = some next) :
    checkedSub? next r.first = some r.count := by
  have hle := r.first_le_last_toNat
  rw [checkedAdd?_eq_some_iff, UInt64.toNat_one] at h
  rw [checkedSub?_eq_some_iff, toNat_count, h]
  omega

theorem checkedAdd?_last_eq_none_iff {r : LineRange} :
    checkedAdd? r.last 1 = none ↔ r.last.toNat = UInt64.size - 1 := by
  have hlt := r.last.toNat_lt
  have hsize : UInt64.size = 2 ^ 64 := rfl
  rw [checkedAdd?, UInt64.toNat_one, ite_eq_right_iff]
  simp only [reduceCtorEq, imp_false]
  omega

/-- Of the three steps only the sum can fail, and where it does not, the checks change nothing. -/
theorem selectChecked?_eq (r : LineRange) (text : List Char) :
    r.selectChecked? text
      = if r.last.toNat = UInt64.size - 1 then none else some (r.select text) := by
  rw [selectChecked?, checkedSub?_first]
  cases hnext : checkedAdd? r.last 1 with
  | none => rw [if_pos (checkedAdd?_last_eq_none_iff.1 hnext)]; rfl
  | some next =>
    have hlast : r.last.toNat ≠ UInt64.size - 1 := fun h => by
      rw [checkedAdd?_last_eq_none_iff.2 h] at hnext
      cases hnext
    rw [if_neg hlast]
    simp only [Option.bind_eq_bind, Option.bind_some, checkedSub?_next hnext]
    rfl

/-! ## Ranges that are read -/

theorem number?_of_lineNumber? {cs : List Char} {w : UInt64} (h : lineNumber? cs = some w) :
    number? 10 (dropPlus (trimBlank cs)) = some w.toNat := by
  rw [lineNumber?] at h
  split at h
  · next n hn =>
    split at h
    · next hlt =>
      obtain rfl := Option.some.inj h
      rw [hn, UInt64.toNat_ofNat_of_lt' hlt]
    · cases h
  · cases h

/-- The bounds of a range are the numbers written before and after the first colon. -/
theorem exists_bounds_of_parse {s : String} {r : LineRange} (h : parse s = .ok r) :
    ∃ start stop, splitOnce ':' s.toList = some (start, stop)
      ∧ number? 10 (dropPlus (trimBlank start)) = some r.first.toNat
      ∧ number? 10 (dropPlus (trimBlank stop)) = some r.last.toNat := by
  rw [parse] at h
  split at h
  · cases h
  · next start stop hsplit =>
    split at h
    · cases h
    · cases h
    · next first last hfirst hlast =>
      unfold ofBounds? at h
      split_ifs at h
      · obtain rfl := Except.ok.inj h
        exact ⟨start, stop, hsplit, number?_of_lineNumber? hfirst, number?_of_lineNumber? hlast⟩

/-- For every text that is read as a range and every text to select from. Both differences are words
wherever they are computed. Selecting with checks fails if and only if the number after the colon is the
greatest word, and otherwise selects what selecting without checks does. Without checks, the lines with
the numbers of the range are selected in any case. -/
theorem selectChecked?_of_parse {s : String} {r : LineRange} (h : parse s = .ok r)
    (text : List Char) :
    checkedSub? r.first 1 = some r.before
      ∧ (∀ next, checkedAdd? r.last 1 = some next → checkedSub? next r.first = some r.count)
      ∧ (r.selectChecked? text = none ↔ ∃ start stop, splitOnce ':' s.toList = some (start, stop)
        ∧ number? 10 (dropPlus (trimBlank stop)) = some (UInt64.size - 1))
      ∧ (∀ selected, r.selectChecked? text = some selected → selected = r.select text)
      ∧ r.select text = unlines (numbered r.first.toNat r.last.toNat (lines text)) := by
  obtain ⟨start, stop, hsplit, -, hlast⟩ := exists_bounds_of_parse h
  refine ⟨r.checkedSub?_first, fun _ => checkedSub?_next, ?_, fun selected hselected => ?_,
    r.select_eq_numbered text⟩
  · rw [selectChecked?_eq, ite_eq_left_iff]
    simp only [reduceCtorEq, imp_false, not_not]
    constructor
    · intro hgreatest
      exact ⟨start, stop, hsplit, by rw [hlast, hgreatest]⟩
    · rintro ⟨_, _, hsplit', hgreatest⟩
      obtain ⟨rfl, rfl⟩ := Prod.mk.inj (Option.some.inj (hsplit.symm.trans hsplit'))
      exact Option.some.inj (hlast.symm.trans hgreatest)
  · rw [selectChecked?_eq] at hselected
    split at hselected
    · cases hselected
    · exact (Option.some.inj hselected).symm

/-- The range from the first line to the one with the greatest number. -/
def untilGreatest : LineRange := ⟨1, 18446744073709551615, by decide, by decide⟩

theorem selectChecked?_of_parse_untilGreatest :
    parse " +1:18446744073709551615" = .ok untilGreatest
      ∧ untilGreatest.selectChecked? "a\nb".toList = none
      ∧ untilGreatest.select "a\nb".toList
        = unlines (numbered 1 18446744073709551615 (lines "a\nb".toList)) := by
  have hparse : parse " +1:18446744073709551615" = .ok untilGreatest := by rfl
  obtain ⟨-, -, hnone, -, hselect⟩ := selectChecked?_of_parse hparse "a\nb".toList
  exact ⟨hparse, hnone.2 ⟨_, _, rfl, rfl⟩, hselect⟩

/-- A range that is read and cannot be selected where sums are checked. -/
theorem not_isSome_selectChecked?_untilGreatest :
    ¬∀ (s : String) (r : LineRange) (text : List Char), parse s = .ok r →
      (r.selectChecked? text).isSome = true := by
  intro h
  exact absurd (h "1:18446744073709551615" untilGreatest [] rfl) (by decide)

end LineRange

end GoScaffold
