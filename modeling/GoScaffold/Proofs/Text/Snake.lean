import GoScaffold.Proofs.Text.Paths

set_option autoImplicit false

/-! # Snake names

The ASCII characters of a name in snake or kebab case are lower-case letters, digits and its
separator, whatever the name was made from. Over ASCII the snake form of an upper camel name tells the
name (`upperCamelChars_separate`), and names that are words of lower-case letters and digits, with one
underscore between each two, are snake forms of their own (`separate_upperCamelChars`). -/

namespace GoScaffold.Text

/-! ## Capitals -/

theorem isUpper_toLower (c : Char) : c.toLower.isUpper = false := by
  cases hupper : c.isUpper with
  | true =>
    have hlower := toLower_of_isUpper hupper
    rw [isUpper_iff] at hupper
    rw [Bool.eq_false_iff, Ne, isUpper_iff]
    omega
  | false => rwa [toLower_of_not_isUpper hupper]

theorem isUpper_of_le {c : Char} (h : 0x80 ≤ c.toNat) : c.isUpper = false := by
  rw [Bool.eq_false_iff, Ne, isUpper_iff]
  omega

/-- Code points above `Z` are no capitals, and numbers that are no code points are none either. -/
theorem isUpper_ofNat {n : Nat} (h : 90 < n) : (Char.ofNat n).isUpper = false := by
  have hcode : (Char.ofNat n).toNat = n ∨ (Char.ofNat n).toNat = 0 := by
    by_cases hvalid : n.isValidChar
    · rw [Char.ofNat, dif_pos hvalid]
      exact .inl rfl
    · rw [Char.ofNat, dif_neg hvalid]
      exact .inr rfl
  rw [Bool.eq_false_iff, Ne, isUpper_iff]
  omega

/-- Lower case has no ASCII capitals. -/
theorem isUpper_of_mem_toLowerCase {c d : Char} (h : d ∈ toLowerCase c) : d.isUpper = false := by
  have hexpansions : ∀ e ∈ lowerExpansions, ∀ n ∈ e.2, 90 < n := by decide +kernel
  have hruns : ∀ r ∈ lowerRuns, 90 < r.target := by decide +kernel
  unfold toLowerCase at h
  split at h
  · rw [List.mem_singleton.1 h]
    exact isUpper_toLower c
  · next hascii =>
    rcases mem_mapCase h with ⟨e, he, -, n, hn, rfl⟩ | ⟨r, hr, -, rfl⟩ | rfl
    · exact isUpper_ofNat (hexpansions e he n hn)
    · exact isUpper_ofNat (Nat.lt_of_lt_of_le (hruns r hr) (Nat.le_add_right _ _))
    · exact isUpper_of_le (Nat.le_of_not_lt hascii)

theorem isUpper_of_not_isCapital {c : Char} (h : isCapital c = false) : c.isUpper = false := by
  by_cases hascii : c.toNat < 0x80
  · rwa [isCapital, if_pos hascii] at h
  · exact isUpper_of_le (Nat.le_of_not_lt hascii)

end GoScaffold.Text

namespace GoScaffold.Naming

open Text

/-! ## Characters -/

/-- Taking words apart leaves no ASCII capitals. -/
theorem isUpper_of_mem_separate {sep : Char} (hsep : sep.isUpper = false) {cs : List Char} {d : Char}
    (h : d ∈ separate sep cs) : d.isUpper = false := by
  obtain ⟨c, hc, hd⟩ := List.mem_flatMap.1 ((List.dropWhile_sublist _).subset h)
  split at hd
  · rcases List.mem_cons.1 hd with rfl | hd
    · exact hsep
    · exact isUpper_of_mem_toLowerCase hd
  · next hcapital =>
    rw [List.mem_singleton.1 hd]
    exact isUpper_of_not_isCapital (Bool.not_eq_true _ ▸ hcapital)

theorem isAlphanum_of_isNameChar {c : Char} (h : isNameChar c = true) (hascii : c.toNat < 0x80) :
    c.isAlphanum = true := by
  rw [isNameChar, decide_eq_false (by omega), Bool.or_false] at h
  exact h

theorem isLower_or_isDigit {c : Char} (h : c.isAlphanum = true) (hupper : c.isUpper = false) :
    c.isLower = true ∨ c.isDigit = true := by
  rw [isAlphanum_iff] at h
  rw [Bool.eq_false_iff, Ne, isUpper_iff] at hupper
  rw [isLower_iff, isDigit_iff]
  omega

/-- The ASCII characters of upper camel names are letters and digits. -/
theorem isAlphanum_of_mem_upperCamel {s : String} {c : Char} (h : c ∈ (upperCamel s).toList)
    (hascii : c.toNat < 0x80) : c.isAlphanum = true :=
  isAlphanum_of_isNameChar (isNameChar_upperCamel c h) hascii

/-- The ASCII characters of a separated name are lower-case letters, digits and the separator. -/
theorem lower_of_mem_separate {sep : Char} (hsep : sep.isUpper = false) {cs : List Char}
    (hcs : ∀ c ∈ cs, isNameChar c = true) {c : Char} (h : c ∈ separate sep cs)
    (hascii : c.toNat < 0x80) : c.isLower = true ∨ c.isDigit = true ∨ c = sep := by
  rcases mem_separate hcs h with hc | hc
  · exact .inr (.inr hc)
  · have hlower := isLower_or_isDigit (isAlphanum_of_isNameChar hc hascii) (isUpper_of_mem_separate hsep h)
    exact hlower.imp_right .inl

/-! ## Words -/

/-- The characters of words. -/
def isAsciiAlphanum (c : Char) : Bool := decide (c.toNat < 0x80) && c.isAlphanum

/-- A word: letters in lower case and digits. -/
def isWord (w : List Char) : Bool := !w.isEmpty && w.all fun c => c.isLower || c.isDigit

/-- Whether a text begins with a lower-case letter. -/
def beginsLow (w : List Char) : Bool := w.head?.any (·.isLower)

/-- Words with one underscore between each two, of which all but the first begin with a letter; or no
words at all. -/
def IsSnake (cs : List Char) : Prop :=
  cs = [] ∨ ((splitWhere (· == '_') cs).all isWord && (splitWhere (· == '_') cs).tail.all beginsLow) = true

/-- What comes of each character when words are taken apart. -/
def apart (c : Char) : List Char := if isCapital c then '_' :: toLowerCase c else [c]

theorem separate_eq (cs : List Char) : separate '_' cs = (cs.flatMap apart).dropWhile (· == '_') := rfl

theorem apart_of_isUpper {c : Char} (h : c.isUpper = true) : apart c = ['_', c.toLower] := by
  have hascii : c.toNat < 0x80 := by
    rw [isUpper_iff] at h
    omega
  rw [apart, isCapital, if_pos hascii, if_pos h, toLowerCase, if_pos hascii]

theorem apart_of_not_isUpper {c : Char} (hascii : c.toNat < 0x80) (h : c.isUpper = false) :
    apart c = [c] := by
  rw [apart, isCapital, if_pos hascii, if_neg (by simp [h])]

theorem toUpperCase_of_ascii {c : Char} (hascii : c.toNat < 0x80) : toUpperCase c = [c.toUpper] := by
  rw [toUpperCase, if_pos hascii]

theorem toUpper_toLower_of_isUpper {c : Char} (h : c.isUpper = true) : c.toLower.toUpper = c := by
  have hlower := toLower_of_isUpper h
  rw [isUpper_iff] at h
  have hupper := toUpper_of_isLower (c := c.toLower) (by rw [isLower_iff]; omega)
  exact Char.toNat_inj.1 (by omega)

/-! ## Upper camel case of words -/

theorem capitalize_append {w : List Char} (hne : w ≠ []) (v : List Char) :
    capitalize (w ++ v) = capitalize w ++ v := by
  obtain ⟨c, w, rfl⟩ := List.exists_cons_of_ne_nil hne
  rw [List.cons_append, capitalize, capitalize, List.append_assoc]

theorem upperCamelChars_of_alphanumeric {w : List Char} (h : ∀ c ∈ w, isAlphanumeric c = true) :
    upperCamelChars w = capitalize w := by
  rw [upperCamelChars, splitWhere_of_forall fun c hc => by simp [h c hc], List.flatMap_singleton]

/-- A word before a separator is capitalized by itself. -/
theorem upperCamelChars_append_cons {sep : Char} (hsep : isAlphanumeric sep = false) (w cs : List Char) :
    upperCamelChars (w ++ sep :: cs) = upperCamelChars w ++ upperCamelChars cs := by
  rw [upperCamelChars, splitWhere_append_cons (by simp [hsep]), List.flatMap_append]
  rfl

theorem upperCamelChars_cons_sep {sep : Char} (hsep : isAlphanumeric sep = false) (cs : List Char) :
    upperCamelChars (sep :: cs) = upperCamelChars cs := upperCamelChars_append_cons hsep [] cs

theorem upperCamelChars_dropWhile {sep : Char} (hsep : isAlphanumeric sep = false) (cs : List Char) :
    upperCamelChars (cs.dropWhile (· == sep)) = upperCamelChars cs := by
  induction cs with
  | nil => rfl
  | cons c cs ih =>
    by_cases hc : c = sep
    · rw [hc, List.dropWhile_cons_of_pos (by simp), ih, upperCamelChars_cons_sep hsep]
    · rw [List.dropWhile_cons_of_neg (by simp [hc])]

theorem isAlphanumeric_toLower_of_isUpper {c : Char} (h : c.isUpper = true) :
    isAlphanumeric c.toLower = true := by
  have hlower := toLower_of_isUpper h
  rw [isUpper_iff] at h
  rw [isAlphanumeric_of_ascii (by omega), isAlphanum_iff]
  omega

theorem capitalize_toLower {c : Char} (h : c.isUpper = true) : capitalize [c.toLower] = [c] := by
  have hlower := toLower_of_isUpper h
  have hascii : c.toLower.toNat < 0x80 := by
    rw [isUpper_iff] at h
    omega
  rw [capitalize, toUpperCase_of_ascii hascii, toUpper_toLower_of_isUpper h, List.append_nil]

/-- Names that are taken apart behind a word come together again. -/
theorem upperCamelChars_append_apart {w cs : List Char} (hne : w ≠ [])
    (hw : ∀ c ∈ w, isAlphanumeric c = true) (hcs : ∀ c ∈ cs, isAsciiAlphanum c = true) :
    upperCamelChars (w ++ cs.flatMap apart) = capitalize w ++ cs := by
  induction cs generalizing w with
  | nil => rw [List.flatMap_nil, List.append_nil, List.append_nil, upperCamelChars_of_alphanumeric hw]
  | cons c cs ih =>
    obtain ⟨hc, hcs⟩ := List.forall_mem_cons.1 hcs
    rw [isAsciiAlphanum, Bool.and_eq_true, decide_eq_true_eq] at hc
    cases hupper : c.isUpper with
    | true =>
      -- A capital begins the next word.
      have hnext := ih (w := [c.toLower]) (by simp)
        (List.forall_mem_singleton.2 (isAlphanumeric_toLower_of_isUpper hupper)) hcs
      rw [List.flatMap_cons, apart_of_isUpper hupper]
      show upperCamelChars (w ++ '_' :: ([c.toLower] ++ cs.flatMap apart)) = _
      rw [upperCamelChars_append_cons (by decide), upperCamelChars_of_alphanumeric hw, hnext,
        capitalize_toLower hupper]
      rfl
    | false =>
      have hlonger : ∀ d ∈ w ++ [c], isAlphanumeric d = true := by
        refine List.forall_mem_append.2 ⟨hw, List.forall_mem_singleton.2 ?_⟩
        rw [isAlphanumeric_of_ascii hc.1]
        exact hc.2
      rw [List.flatMap_cons, apart_of_not_isUpper hc.1 hupper, ← List.append_assoc, ih (by simp) hlonger hcs,
        capitalize_append hne, List.append_assoc]
      rfl

/-- What does not begin with a lower-case letter comes together again after it is taken apart. -/
theorem upperCamelChars_apart {cs : List Char} (hcs : ∀ c ∈ cs, isAsciiAlphanum c = true)
    (hhead : ∀ c ∈ cs.head?, c.isLower = false) : upperCamelChars (cs.flatMap apart) = cs := by
  cases cs with
  | nil => rfl
  | cons c cs =>
    obtain ⟨hc, hcs⟩ := List.forall_mem_cons.1 hcs
    rw [isAsciiAlphanum, Bool.and_eq_true, decide_eq_true_eq] at hc
    have halphanumeric : ∀ d ∈ [c], isAlphanumeric d = true := by
      rw [List.forall_mem_singleton, isAlphanumeric_of_ascii hc.1]
      exact hc.2
    cases hupper : c.isUpper with
    | true =>
      rw [List.flatMap_cons, apart_of_isUpper hupper]
      show upperCamelChars ('_' :: ([c.toLower] ++ cs.flatMap apart)) = _
      rw [upperCamelChars_cons_sep (by decide), upperCamelChars_append_apart (by simp)
        (List.forall_mem_singleton.2 (isAlphanumeric_toLower_of_isUpper hupper)) hcs,
        capitalize_toLower hupper]
      rfl
    | false =>
      rw [List.flatMap_cons, apart_of_not_isUpper hc.1 hupper,
        upperCamelChars_append_apart (by simp) halphanumeric hcs, capitalize, toUpperCase_of_ascii hc.1,
        toUpper_of_not_isLower (hhead c rfl)]
      rfl

/-! ## Upper camel names -/

theorem isAsciiAlphanum_toUpper {c : Char} (h : isAsciiAlphanum c = true) :
    isAsciiAlphanum c.toUpper = true := by
  rw [isAsciiAlphanum, Bool.and_eq_true, decide_eq_true_eq] at *
  rw [isAlphanum_toUpper]
  rcases toUpper_eq_or c with hc | ⟨-, -, hc⟩
  · rw [hc]
    exact h
  · exact ⟨by omega, h.2⟩

theorem isAsciiAlphanum_capitalize {w : List Char} (h : ∀ c ∈ w, isAsciiAlphanum c = true) :
    ∀ c ∈ capitalize w, isAsciiAlphanum c = true := by
  cases w with
  | nil => exact h
  | cons c w =>
    obtain ⟨hc, hw⟩ := List.forall_mem_cons.1 h
    have hascii : c.toNat < 0x80 := by
      rw [isAsciiAlphanum, Bool.and_eq_true, decide_eq_true_eq] at hc
      exact hc.1
    rw [capitalize, toUpperCase_of_ascii hascii]
    exact List.forall_mem_cons.2 ⟨isAsciiAlphanum_toUpper hc, hw⟩

theorem isLower_toUpper (c : Char) : c.toUpper.isLower = false := by
  cases hlower : c.isLower with
  | true =>
    have hupper := toUpper_of_isLower hlower
    rw [isLower_iff] at hlower
    rw [Bool.eq_false_iff, Ne, isLower_iff]
    omega
  | false => rwa [toUpper_of_not_isLower hlower]

/-- Capitalized words together do not begin with a lower-case letter. -/
theorem isLower_head_flatMap_capitalize {words : List (List Char)}
    (h : ∀ w ∈ words, ∀ c ∈ w, c.toNat < 0x80) :
    ∀ c ∈ (words.flatMap capitalize).head?, c.isLower = false := by
  induction words with
  | nil => simp
  | cons w words ih =>
    obtain ⟨hw, hwords⟩ := List.forall_mem_cons.1 h
    cases w with
    | nil => exact ih hwords
    | cons c w =>
      intro d hd
      rw [List.flatMap_cons, capitalize, toUpperCase_of_ascii (hw c List.mem_cons_self)] at hd
      obtain rfl : c.toUpper = d := Option.some.inj hd
      exact isLower_toUpper c

section

variable {cs : List Char} (hascii : ∀ c ∈ cs, c.toNat < 0x80)

include hascii

theorem isAsciiAlphanum_upperCamelChars : ∀ c ∈ upperCamelChars cs, isAsciiAlphanum c = true := by
  intro c hc
  obtain ⟨w, hw, hc⟩ := List.mem_flatMap.1 hc
  refine isAsciiAlphanum_capitalize (fun d hd => ?_) c hc
  have hcode := hascii d (mem_of_mem_splitWhere hw hd)
  have halphanumeric := not_of_mem_splitWhere hw hd
  rw [Bool.not_eq_false', isAlphanumeric_of_ascii hcode] at halphanumeric
  rw [isAsciiAlphanum, decide_eq_true hcode, halphanumeric]
  rfl

/-- The upper camel name of ASCII characters is told by its snake form. -/
theorem upperCamelChars_separate :
    upperCamelChars (separate '_' (upperCamelChars cs)) = upperCamelChars cs := by
  rw [separate_eq, upperCamelChars_dropWhile (by decide)]
  refine upperCamelChars_apart (isAsciiAlphanum_upperCamelChars hascii) ?_
  exact isLower_head_flatMap_capitalize fun w hw c hc => hascii c (mem_of_mem_splitWhere hw hc)

end

theorem upperCamel_snake {s : String} (h : ∀ c ∈ s.toList, c.toNat < 0x80) :
    upperCamel (snake (upperCamel s)) = upperCamel s := by
  refine String.toList_inj.1 ?_
  simp only [upperCamel, snake, toList_onChars]
  exact upperCamelChars_separate h

/-- Over ASCII, upper camel names are the same just if their snake forms are. -/
theorem snake_upperCamel_inj {s t : String} (hs : ∀ c ∈ s.toList, c.toNat < 0x80)
    (ht : ∀ c ∈ t.toList, c.toNat < 0x80) :
    snake (upperCamel s) = snake (upperCamel t) ↔ upperCamel s = upperCamel t := by
  constructor
  · intro h
    rw [← upperCamel_snake hs, ← upperCamel_snake ht, h]
  · exact fun h => congrArg snake h

/-! ## Names that are snake forms -/

theorem isWord_iff {w : List Char} :
    isWord w = true ↔ w ≠ [] ∧ ∀ c ∈ w, c.isLower = true ∨ c.isDigit = true := by
  rw [isWord, Bool.and_eq_true, Bool.not_eq_true', List.isEmpty_eq_false_iff, List.all_eq_true]
  exact and_congr_right fun _ => forall₂_congr fun c _ => Bool.or_eq_true_iff

theorem ascii_of_low {c : Char} (h : c.isLower = true ∨ c.isDigit = true) :
    c.toNat < 0x80 ∧ c.isUpper = false ∧ isAlphanumeric c = true := by
  rw [isLower_iff, isDigit_iff] at h
  have hascii : c.toNat < 0x80 := by omega
  rw [Bool.eq_false_iff, Ne, isUpper_iff, isAlphanumeric_of_ascii hascii, isAlphanum_iff]
  omega

/-- Words have nothing to take apart. -/
theorem flatMap_apart_of_low {w : List Char} (h : ∀ c ∈ w, c.isLower = true ∨ c.isDigit = true) :
    w.flatMap apart = w := by
  induction w with
  | nil => rfl
  | cons c w ih =>
    obtain ⟨hc, hw⟩ := List.forall_mem_cons.1 h
    obtain ⟨hascii, hupper, -⟩ := ascii_of_low hc
    rw [List.flatMap_cons, apart_of_not_isUpper hascii hupper, ih hw]
    rfl

/-- A capitalized word is taken apart into the word, after an underscore if it begins with a letter. -/
theorem flatMap_apart_capitalize {w : List Char} (h : isWord w = true) :
    (capitalize w).flatMap apart = if beginsLow w = true then '_' :: w else w := by
  obtain ⟨hne, hlow⟩ := isWord_iff.1 h
  obtain ⟨c, w, rfl⟩ := List.exists_cons_of_ne_nil hne
  obtain ⟨hc, hw⟩ := List.forall_mem_cons.1 hlow
  obtain ⟨hascii, hupper, -⟩ := ascii_of_low hc
  have hbegins : beginsLow (c :: w) = c.isLower := rfl
  rw [capitalize, toUpperCase_of_ascii hascii, List.singleton_append, List.flatMap_cons,
    flatMap_apart_of_low hw, hbegins]
  by_cases hlower : c.isLower = true
  · have hcapital : c.toUpper.isUpper = true := by
      have hcode := toUpper_of_isLower hlower
      rw [isLower_iff] at hlower
      rw [isUpper_iff]
      omega
    have hback : c.toUpper.toLower = c := by
      have hcode := toUpper_of_isLower hlower
      have hlowered := toLower_of_isUpper hcapital
      rw [isLower_iff] at hlower
      exact Char.toNat_inj.1 (by omega)
    rw [apart_of_isUpper hcapital, if_pos hlower, hback]
    rfl
  · rw [toUpper_of_not_isLower (Bool.not_eq_true _ ▸ hlower), apart_of_not_isUpper hascii hupper,
      if_neg hlower]
    rfl

/-- Words with underscores between them are capitalized one by one. -/
theorem upperCamelChars_words {first : List Char} {rest : List (List Char)}
    (h : ∀ w ∈ first :: rest, isWord w = true) :
    upperCamelChars (first ++ rest.flatMap ('_' :: ·)) = (first :: rest).flatMap capitalize := by
  have hword {w : List Char} (hw : isWord w = true) : upperCamelChars w = capitalize w :=
    upperCamelChars_of_alphanumeric fun c hc => (ascii_of_low ((isWord_iff.1 hw).2 c hc)).2.2
  induction rest generalizing first with
  | nil =>
    rw [List.flatMap_nil, List.append_nil, List.flatMap_singleton]
    exact hword (h first List.mem_cons_self)
  | cons w rest ih =>
    obtain ⟨hfirst, hrest⟩ := List.forall_mem_cons.1 h
    rw [List.flatMap_cons, List.cons_append, upperCamelChars_append_cons (by decide), hword hfirst,
      ih hrest]
    rfl

/-- A snake name is the snake form of its upper camel form. -/
theorem separate_upperCamelChars {cs : List Char} (h : IsSnake cs) :
    separate '_' (upperCamelChars cs) = cs := by
  rcases h with rfl | h
  · rfl
  obtain ⟨first, rest, hsplit⟩ := List.exists_cons_of_ne_nil (splitWhere_ne_nil (· == '_') cs)
  rw [hsplit, Bool.and_eq_true, List.all_eq_true, List.all_eq_true, List.tail_cons] at h
  obtain ⟨hwords, hletters⟩ := h
  obtain ⟨hfirst, hrest⟩ := List.forall_mem_cons.1 hwords
  have hapart : rest.flatMap (fun w => (capitalize w).flatMap apart) = rest.flatMap ('_' :: ·) := by
    rw [List.flatMap_def, List.flatMap_def]
    refine congrArg List.flatten (List.map_congr_left fun w hw => ?_)
    rw [flatMap_apart_capitalize (hrest w hw), if_pos (hletters w hw)]
  rw [separate_eq, eq_append_of_splitWhere hsplit, upperCamelChars_words hwords, List.flatMap_assoc,
    List.flatMap_cons, flatMap_apart_capitalize hfirst, hapart]
  -- One underscore at most stands before the first word, and the word begins with none.
  obtain ⟨hne, hlow⟩ := isWord_iff.1 hfirst
  obtain ⟨c, w, rfl⟩ := List.exists_cons_of_ne_nil hne
  have hsep : (c == '_') = false := by
    rw [beq_eq_false_iff_ne]
    rintro rfl
    exact absurd (hlow '_' List.mem_cons_self) (by decide)
  split <;> simp [hsep]

theorem snake_upperCamel {s : String} (h : IsSnake s.toList) : snake (upperCamel s) = s := by
  refine String.toList_inj.1 ?_
  simp only [upperCamel, snake, toList_onChars]
  exact separate_upperCamelChars h

end GoScaffold.Naming
