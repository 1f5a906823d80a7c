import GoScaffold.Input.LineRange
import GoScaffold.Proofs.Text.Capitals
import GoScaffold.Proofs.Text.Lines
import GoScaffold.Proofs.Text.Names
import GoScaffold.Proofs.Text.Trimming

set_option autoImplicit false

/-! # Selected lines

A range takes from a text the lines with the numbers that it names, as far as there are such lines, and
each is followed by one line feed. So ranges that follow each other select what the range over both
does, and a range over the whole text normalises its line ends (`select_numbered`). -/

namespace GoScaffold

namespace Text

/-! ## Numbers as they are written -/

theorem digitValue_of_isDigit {c : Char} (h : c.isDigit = true) : digitValue c = c.toNat - '0'.toNat := by
  have hdigit : '0' ≤ c ∧ c ≤ '9' := by
    simpa [Char.isDigit, Char.le_def] using h
  rw [digitValue, if_pos hdigit]

theorem isDigitOf_ten {c : Char} (h : c.isDigit = true) : isDigitOf 10 c = true := by
  have hcode := isDigit_iff.1 h
  have hzero : '0'.toNat = 48 := rfl
  rw [isDigitOf, digitValue_of_isDigit h, decide_eq_true_eq]
  omega

theorem isBlank_of_isDigit {c : Char} (h : c.isDigit = true) : isBlank c = false := by
  have hcode := isDigit_iff.1 h
  simp [isBlank]
  omega

/-- Decimal digits are read as the number they write. -/
theorem number?_toDigits (n : Nat) : number? 10 (Nat.toDigits 10 n) = some n := by
  have hdigits : ∀ c ∈ Nat.toDigits 10 n, c.isDigit = true := fun c hc =>
    Nat.isDigit_of_mem_toDigits (by decide) (by decide) hc
  have hall : (Nat.toDigits 10 n).all (isDigitOf 10) = true :=
    List.all_eq_true.2 fun c hc => isDigitOf_ten (hdigits c hc)
  have hfold (cs : List Char) (h : ∀ c ∈ cs, c.isDigit = true) (init : Nat) :
      cs.foldl (fun n c => 10 * n + digitValue c) init = Nat.ofDigitChars 10 cs init := by
    induction cs generalizing init with
    | nil => rfl
    | cons c cs ih =>
      obtain ⟨hc, hcs⟩ := List.forall_mem_cons.1 h
      rw [List.foldl_cons, digitValue_of_isDigit hc, ih hcs, Nat.ofDigitChars_cons]
  rw [number?, hall, ofDigits, hfold _ hdigits, Nat.ofDigitChars_ten_toDigits]
  simp [Nat.toDigits_ne_nil]

end Text

namespace LineRange

open Text

/-! ## Ranges as they are written -/

/-- The range as `A:B`. -/
def display (r : LineRange) : String := toString r.first.toNat ++ ":" ++ toString r.last.toNat

theorem lineNumber?_toDigits (w : UInt64) : lineNumber? (Nat.toDigits 10 w.toNat) = some w := by
  have hdigit : ∀ c ∈ Nat.toDigits 10 w.toNat, c.isDigit = true := fun c hc =>
    Nat.isDigit_of_mem_toDigits (by decide) (by decide) hc
  have htrim : trimBlank (Nat.toDigits 10 w.toNat) = Nat.toDigits 10 w.toNat :=
    trimWhere_eq_self_of_forall fun c hc => isBlank_of_isDigit (hdigit c hc)
  have hplus : dropPlus (Nat.toDigits 10 w.toNat) = Nat.toDigits 10 w.toNat := by
    unfold dropPlus
    split
    · next cs heq => exact absurd (hdigit '+' (by rw [heq]; exact List.mem_cons_self)) (by decide)
    · rfl
  have hlt : w.toNat < UInt64.size := w.toNat_lt
  rw [lineNumber?, htrim, hplus, number?_toDigits]
  simp [hlt]

/-- Every range is read from what it is written as. -/
theorem parse_display (r : LineRange) : parse r.display = .ok r := by
  have hcolon : ':' ∉ Nat.toDigits 10 r.first.toNat := fun hmem =>
    absurd (Nat.isDigit_of_mem_toDigits (by decide) (by decide) hmem) (by decide)
  have hsplit : splitOnce ':' r.display.toList
      = some (Nat.toDigits 10 r.first.toNat, Nat.toDigits 10 r.last.toNat) := by
    rw [← splitOnce_append hcolon]
    simp [display, Nat.toList_repr]
  have hbounds : ofBounds? r.first r.last = some r := by
    rw [ofBounds?, dif_pos ⟨r.first_ne_zero, r.first_le_last⟩]
  rw [parse, hsplit]
  simp only [lineNumber?_toDigits, hbounds]

/-! ## Counts -/

theorem first_pos (r : LineRange) : 0 < r.first.toNat :=
  Nat.pos_of_ne_zero fun h => r.first_ne_zero (UInt64.toNat_inj.1 h)

theorem first_le_last_toNat (r : LineRange) : r.first.toNat ≤ r.last.toNat :=
  UInt64.le_iff_toNat_le.1 r.first_le_last

theorem toNat_before (r : LineRange) : r.before.toNat = r.first.toNat - 1 := by
  have hone : (1 : UInt64) ≤ r.first := by
    rw [UInt64.le_iff_toNat_le, UInt64.toNat_one]
    exact r.first_pos
  rw [before, UInt64.toNat_sub_of_le _ _ hone, UInt64.toNat_one]

/-- The count is right even where the sum before it wraps. -/
theorem toNat_count (r : LineRange) : r.count.toNat = r.last.toNat + 1 - r.first.toNat := by
  have hpos := r.first_pos
  have hle := r.first_le_last_toNat
  have hlt := r.last.toNat_lt
  rw [count, UInt64.toNat_sub, UInt64.toNat_add, UInt64.toNat_one]
  omega

/-! ## Lines by their numbers -/

/-- The lines with the numbers from `first` to `last`; the first line has the number one. -/
def numbered (first last : Nat) (ls : List (List Char)) : List (List Char) :=
  ((ls.zipIdx 1).filter fun entry => first ≤ entry.2 ∧ entry.2 ≤ last).map (·.1)

/-- Lines are selected by their numbers where those before the first number are left out and as many
are taken as there are numbers, whatever number the lines begin with. -/
theorem map_filter_zipIdx (first last k : Nat) (ls : List (List Char)) :
    ((ls.zipIdx k).filter fun entry => first ≤ entry.2 ∧ entry.2 ≤ last).map (·.1)
      = (ls.drop (first - k)).take (last + 1 - max first k) := by
  induction ls generalizing k with
  | nil => simp
  | cons l ls ih =>
    rw [List.zipIdx_cons]
    by_cases hfirst : first ≤ k
    · have hdrop : first - k = 0 := by omega
      have hdrop' : first - (k + 1) = 0 := by omega
      by_cases hlast : k ≤ last
      · have htake : last + 1 - max first k = last + 1 - max first (k + 1) + 1 := by omega
        rw [List.filter_cons_of_pos (by simp [hfirst, hlast]), List.map_cons, ih, hdrop, hdrop', htake,
          List.drop_zero, List.drop_zero, List.take_succ_cons]
      · have htake : last + 1 - max first k = 0 := by omega
        have htake' : last + 1 - max first (k + 1) = 0 := by omega
        rw [List.filter_cons_of_neg (by simp [hlast]), ih, htake, htake', List.take_zero, List.take_zero]
    · have hdrop : first - k = first - (k + 1) + 1 := by omega
      have hmax : max first (k + 1) = max first k := by omega
      rw [List.filter_cons_of_neg (by simp [hfirst]), ih, hdrop, hmax, List.drop_succ_cons]

theorem numbered_eq {first : Nat} (hfirst : 0 < first) (last : Nat) (ls : List (List Char)) :
    numbered first last ls = (ls.drop (first - 1)).take (last + 1 - first) := by
  rw [numbered, map_filter_zipIdx, Nat.max_eq_left hfirst]

/-- No line has a number beyond how many there are. -/
theorem numbered_min_length (first last : Nat) (ls : List (List Char)) :
    numbered first (min last ls.length) ls = numbered first last ls := by
  have hkept : ∀ entry ∈ ls.zipIdx 1, decide (first ≤ entry.2 ∧ entry.2 ≤ min last ls.length)
      = decide (first ≤ entry.2 ∧ entry.2 ≤ last) := by
    intro entry hentry
    have hnumber : entry.2 < 1 + ls.length := List.snd_lt_add_of_mem_zipIdx hentry
    rw [decide_eq_decide]
    omega
  rw [numbered, List.filter_congr hkept, numbered]

/-! ## Selecting -/

theorem select_eq_numbered (r : LineRange) (text : List Char) :
    r.select text = unlines (numbered r.first.toNat r.last.toNat (lines text)) := by
  rw [select, numbered_eq r.first_pos, toNat_before, toNat_count]

/-- Ranges that follow each other select what the range over both does. -/
theorem select_append {r s t : LineRange} (hnext : s.first.toNat = r.last.toNat + 1)
    (hfirst : t.first = r.first) (hlast : t.last = s.last) (text : List Char) :
    r.select text ++ s.select text = t.select text := by
  have hle := r.first_le_last_toNat
  have hle' := s.first_le_last_toNat
  have hpos := r.first_pos
  have hdrop : s.first.toNat - 1 = r.first.toNat - 1 + (r.last.toNat + 1 - r.first.toNat) := by omega
  have htake : s.last.toNat + 1 - r.first.toNat
      = r.last.toNat + 1 - r.first.toNat + (s.last.toNat + 1 - s.first.toNat) := by omega
  rw [select, select, select, toNat_before, toNat_before, toNat_before, toNat_count, toNat_count,
    toNat_count, hfirst, hlast, ← unlines_append, hdrop, ← List.drop_drop, ← List.take_add, htake]

/-- For every text. Every range is read from what it is written as, and selects the lines with the
numbers from its first to its last, or to the last there is, each followed by one line feed. Two ranges
of which one begins right after the other select together what the range over both does. A range from
the first line on that reaches the last one selects the text with its line ends normalised. -/
theorem select_numbered (text : List Char) :
    (∀ r : LineRange, parse r.display = .ok r
        ∧ r.select text
          = unlines (numbered r.first.toNat (min r.last.toNat (lines text).length) (lines text)))
      ∧ (∀ r s t : LineRange, s.first.toNat = r.last.toNat + 1 → t.first = r.first → t.last = s.last →
        r.select text ++ s.select text = t.select text)
      ∧ ∀ r : LineRange, r.first = 1 → (lines text).length ≤ r.last.toNat →
        r.select text = normalised text := by
  refine ⟨fun r => ⟨parse_display r, ?_⟩, fun r s t hnext hfirst hlast =>
    select_append hnext hfirst hlast text, fun r hfirst hall => ?_⟩
  · rw [numbered_min_length, select_eq_numbered]
  · rw [select, toNat_before, toNat_count, hfirst, UInt64.toNat_one, Nat.sub_self, List.drop_zero,
      Nat.add_sub_cancel, List.take_of_length_le hall, unlines_lines]

/-- A text with both line ends, an empty line, a carriage return alone and a last line that is not ended,
in two ranges of which the second reaches beyond it. -/
theorem select_numbered_mixedEnds :
    ∃ r s t : LineRange, parse " 1:+02" = .ok r ∧ parse "3 : 9" = .ok s ∧ parse "1:9" = .ok t
      ∧ s.first.toNat = r.last.toNat + 1 ∧ t.first = r.first ∧ t.last = s.last ∧ t.first = 1
      ∧ (lines "a\r\n\nb\rc\nd".toList).length ≤ t.last.toNat
      ∧ r.select "a\r\n\nb\rc\nd".toList ++ s.select "a\r\n\nb\rc\nd".toList
        = t.select "a\r\n\nb\rc\nd".toList
      ∧ t.select "a\r\n\nb\rc\nd".toList = normalised "a\r\n\nb\rc\nd".toList
      ∧ normalised "a\r\n\nb\rc\nd".toList = "a\n\nb\rc\nd\n".toList := by
  obtain ⟨-, hjoined, hwhole⟩ := select_numbered "a\r\n\nb\rc\nd".toList
  exact ⟨⟨1, 2, by decide, by decide⟩, ⟨3, 9, by decide, by decide⟩, ⟨1, 9, by decide, by decide⟩,
    by decide, by decide, by decide, by decide, rfl, rfl, rfl, by decide,
    hjoined _ _ _ (by decide) rfl rfl, hwhole _ rfl (by decide), by decide⟩

end LineRange

end GoScaffold
