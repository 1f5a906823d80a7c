import GoScaffold.Proofs.Text.Snake

set_option autoImplicit false

/-! # Names and their forms

A name in upper camel case loses where the words of a name end. Over ASCII its snake form and its kebab
form lose nothing more, so each of them tells it (`kebab_inj`). A snake form is the name itself just if
the name is canonical, that is words of lower-case letters and digits with one underscore between each
two, all but the first beginning with a letter (`forms_told`). -/

namespace GoScaffold.Text

/-- Texts are cut alike by classes that agree on their characters. -/
theorem splitWhere_congr {α : Type} {p q : α → Bool} {cs : List α} (h : ∀ c ∈ cs, p c = q c) :
    splitWhere p cs = splitWhere q cs := by
  induction cs with
  | nil => rfl
  | cons c cs ih =>
    obtain ⟨hc, hcs⟩ := List.forall_mem_cons.1 h
    rw [splitWhere, splitWhere, hc, ih hcs]

end GoScaffold.Text

namespace GoScaffold.Naming

open Text

/-! ## Kebab names -/

/-- Upper camel names do not depend on what stands between the words. -/
theorem upperCamelChars_map {f : Char → Char} {cs : List Char}
    (hkeep : ∀ c ∈ cs, isAlphanumeric c = true → f c = c)
    (hcut : ∀ c ∈ cs, isAlphanumeric c = false → isAlphanumeric (f c) = false) :
    upperCamelChars (cs.map f) = upperCamelChars cs := by
  have hsplit : splitWhere (fun c => !isAlphanumeric c) (cs.map f)
      = splitWhere (fun c => !isAlphanumeric c) cs := by
    induction cs with
    | nil => rfl
    | cons c cs ih =>
      have hrest := ih (fun d hd => hkeep d (List.mem_cons_of_mem _ hd))
        (fun d hd => hcut d (List.mem_cons_of_mem _ hd))
      rw [List.map_cons, splitWhere, splitWhere, hrest]
      cases hc : isAlphanumeric c with
      | true => rw [hkeep c List.mem_cons_self hc, hc]
      | false =>
        rw [hcut c List.mem_cons_self hc]
        rfl
  rw [upperCamelChars, upperCamelChars, hsplit]

/-- An underscore as a hyphen. -/
def hyphenated (c : Char) : Char := if c = '_' then '-' else c

theorem hyphenated_of_isAlphanum {c : Char} (h : c.isAlphanum = true) : hyphenated c = c := by
  rw [hyphenated, if_neg]
  rintro rfl
  exact absurd h (by decide)

/-- Only an underscore becomes a hyphen, so as much is dropped at the front. -/
theorem dropWhile_hyphenated {cs : List Char} (h : '-' ∉ cs) :
    (cs.map hyphenated).dropWhile (· == '-') = (cs.dropWhile (· == '_')).map hyphenated := by
  induction cs with
  | nil => rfl
  | cons c cs ih =>
    rw [List.mem_cons, not_or] at h
    by_cases hc : c = '_'
    · rw [hc, List.map_cons, List.dropWhile_cons_of_pos (by decide), ih h.2,
        List.dropWhile_cons_of_pos (by decide)]
    · have hkept : hyphenated c = c := if_neg hc
      rw [List.map_cons, hkept, List.dropWhile_cons_of_neg (by simpa using Ne.symm h.1),
        List.dropWhile_cons_of_neg (by simpa using hc), List.map_cons, hkept]

/-- What becomes of a letter or digit has no hyphen before its hyphens are put in. -/
theorem apart_hyphenated {c : Char} (h : isAsciiAlphanum c = true) :
    '-' ∉ apart c
      ∧ (apart c).map hyphenated = if isCapital c then '-' :: toLowerCase c else [c] := by
  rw [isAsciiAlphanum, Bool.and_eq_true, decide_eq_true_eq] at h
  have hne {d : Char} (hd : d.isAlphanum = true) : '-' ≠ d := by
    rintro rfl
    exact absurd hd (by decide)
  cases hupper : c.isUpper with
  | true =>
    have hlower := isAlphanum_toLower h.2
    rw [apart_of_isUpper hupper, isCapital, if_pos h.1, if_pos hupper, toLowerCase, if_pos h.1,
      List.map_cons, List.map_cons, hyphenated_of_isAlphanum hlower]
    refine ⟨?_, rfl⟩
    simp [hne hlower]
  | false =>
    rw [apart_of_not_isUpper h.1 hupper, isCapital, if_pos h.1, if_neg (by simp [hupper]),
      List.map_cons, hyphenated_of_isAlphanum h.2]
    refine ⟨?_, rfl⟩
    simp [hne h.2]

/-- What is taken apart with hyphens is what is taken apart with underscores, written with hyphens. -/
theorem separate_hyphen {cs : List Char} (h : ∀ c ∈ cs, isAsciiAlphanum c = true) :
    separate '-' cs = (separate '_' cs).map hyphenated := by
  have hnone : '-' ∉ cs.flatMap apart := by
    intro hmem
    obtain ⟨c, hc, hmem⟩ := List.mem_flatMap.1 hmem
    exact (apart_hyphenated (h c hc)).1 hmem
  have hapart : (cs.flatMap apart).map hyphenated
      = cs.flatMap fun c => if isCapital c then '-' :: toLowerCase c else [c] := by
    rw [List.map_flatMap, List.flatMap_def, List.flatMap_def]
    exact congrArg List.flatten (List.map_congr_left fun c hc => (apart_hyphenated (h c hc)).2)
  rw [separate_eq, ← dropWhile_hyphenated hnone, hapart]
  rfl

/-- The upper camel name of ASCII characters is told by its kebab form. -/
theorem upperCamel_kebab {s : String} (h : ∀ c ∈ s.toList, c.toNat < 0x80) :
    upperCamel (kebab s) = upperCamel s := by
  refine String.toList_inj.1 ?_
  simp only [upperCamel, kebab, toList_onChars]
  rw [separate_hyphen (isAsciiAlphanum_upperCamelChars h), upperCamelChars_map,
    upperCamelChars_separate h]
  · intro c _ hc
    rw [hyphenated, if_neg]
    rintro rfl
    exact absurd hc (by decide)
  · intro c _ hc
    rw [hyphenated]
    split
    · decide
    · exact hc

/-- Over ASCII, kebab names are the same just if the upper camel names are. -/
theorem kebab_inj {s t : String} (hs : ∀ c ∈ s.toList, c.toNat < 0x80)
    (ht : ∀ c ∈ t.toList, c.toNat < 0x80) : kebab s = kebab t ↔ upperCamel s = upperCamel t := by
  constructor
  · intro h
    rw [← upperCamel_kebab hs, ← upperCamel_kebab ht, h]
  · intro h
    have hchars := congrArg String.toList h
    simp only [upperCamel, toList_onChars] at hchars
    refine String.toList_inj.1 ?_
    simp only [kebab, toList_onChars]
    rw [hchars]

/-! ## Canonical names -/

/-- Snake names are words with an underscore between each two, or none. -/
theorem isSnake_iff {s : String} :
    IsSnake s.toList ↔ ∃ words : List String, s = join "_" words
      ∧ (∀ w ∈ words, isWord w.toList = true) ∧ ∀ w ∈ words.tail, beginsLow w.toList = true := by
  constructor
  · rintro (hempty | hwords)
    · exact ⟨[], String.toList_inj.1 hempty, by simp, by simp⟩
    · obtain ⟨first, rest, hsplit⟩ := List.exists_cons_of_ne_nil (splitWhere_ne_nil (· == '_') s.toList)
      rw [hsplit, Bool.and_eq_true, List.all_eq_true, List.all_eq_true, List.tail_cons] at hwords
      have htexts : ((first :: rest).map String.ofList).map String.toList = first :: rest := by
        simp [Function.comp_def]
      refine ⟨(first :: rest).map String.ofList, String.toList_inj.1 ?_, ?_, ?_⟩
      · rw [toList_join "_" htexts]
        exact eq_append_of_splitWhere hsplit
      · simpa using hwords.1
      · simpa using hwords.2
  · rintro ⟨words, rfl, hwords, hletters⟩
    cases words with
    | nil => exact .inl rfl
    | cons first rest =>
      have hsep : ∀ w ∈ first :: rest, ∀ c ∈ w.toList, (c == '_') = false := by
        intro w hw c hc
        rw [beq_eq_false_iff_ne]
        rintro rfl
        exact absurd ((isWord_iff.1 (hwords w hw)).2 '_' hc) (by decide)
      have hsplit : splitWhere (· == '_') (join "_" (first :: rest)).toList
          = first.toList :: rest.map (·.toList) :=
        (splitWhere_join_iff (p := (· == '_')) '_' rfl (List.cons_ne_nil first rest)).2 hsep
      refine .inr ?_
      rw [hsplit, Bool.and_eq_true, ← List.map_cons, List.all_map, List.map_cons, List.tail_cons,
        List.all_map, List.all_eq_true, List.all_eq_true]
      exact ⟨hwords, hletters⟩

/-- A word as it comes out of the capitalized words taken apart. -/
def led (w : List Char) : List Char := if beginsLow w = true then '_' :: w else w

theorem flatMap_apart_capitalize_eq_led {w : List Char}
    (h : ∀ c ∈ w, c.isLower = true ∨ c.isDigit = true) : (capitalize w).flatMap apart = led w := by
  cases w with
  | nil => rfl
  | cons c w =>
    exact flatMap_apart_capitalize (isWord_iff.2 ⟨List.cons_ne_nil c w, h⟩)

/-- There is an underscore for each word that begins with a letter. -/
theorem count_flatMap_led {words : List (List Char)} (h : ∀ w ∈ words, '_' ∉ w) :
    (words.flatMap led).count '_' = words.countP beginsLow := by
  induction words with
  | nil => rfl
  | cons w words ih =>
    obtain ⟨hw, hwords⟩ := List.forall_mem_cons.1 h
    have hnone : w.count '_' = 0 := List.count_eq_zero.2 hw
    rw [List.flatMap_cons, List.count_append, ih hwords, led, List.countP_cons]
    split
    · rw [List.count_cons_self, hnone]
      omega
    · rw [hnone]
      omega

theorem count_flatMap_cons {words : List (List Char)} (h : ∀ w ∈ words, '_' ∉ w) :
    (words.flatMap ('_' :: ·)).count '_' = words.length := by
  induction words with
  | nil => rfl
  | cons w words ih =>
    obtain ⟨hw, hwords⟩ := List.forall_mem_cons.1 h
    have hnone : w.count '_' = 0 := List.count_eq_zero.2 hw
    rw [List.flatMap_cons, List.count_append, ih hwords, List.count_cons_self, hnone, List.length_cons]
    omega

/-- As many underscores as words come out only if every word begins with a letter. -/
theorem beginsLow_of_flatMap {words : List (List Char)} (h : ∀ w ∈ words, '_' ∉ w)
    (hsame : words.flatMap ('_' :: ·) = words.flatMap led) : ∀ w ∈ words, beginsLow w = true := by
  rw [← List.countP_eq_length, ← count_flatMap_led h, ← hsame, count_flatMap_cons h]

/-- Where the cuts of a name are its underscores, the snake form is made of the words between them. -/
theorem separate_upperCamelChars_of_low {cs : List Char}
    (hcut : ∀ c ∈ cs, (!isAlphanumeric c) = (c == '_'))
    (hlow : ∀ w ∈ splitWhere (· == '_') cs, ∀ c ∈ w, c.isLower = true ∨ c.isDigit = true) :
    separate '_' (upperCamelChars cs)
      = ((splitWhere (· == '_') cs).flatMap led).dropWhile (· == '_') := by
  have hled : (splitWhere (· == '_') cs).map (fun w => (capitalize w).flatMap apart)
      = (splitWhere (· == '_') cs).map led :=
    List.map_congr_left fun w hw => flatMap_apart_capitalize_eq_led (hlow w hw)
  rw [separate_eq, upperCamelChars, splitWhere_congr hcut, List.flatMap_assoc, List.flatMap_def, hled,
    ← List.flatMap_def]

/-- Of the characters that a snake form holds, just the underscore is a cut. -/
theorem isCut_of_snakeChar {c : Char} (h : c.isLower = true ∨ c.isDigit = true ∨ c = '_') :
    (!isAlphanumeric c) = (c == '_') := by
  by_cases hsep : c = '_'
  · rw [hsep]
    decide
  · have hletter : c.isLower = true ∨ c.isDigit = true :=
      h.imp_right fun h => h.resolve_right hsep
    rw [(ascii_of_low hletter).2.2, beq_false_of_ne hsep]
    rfl

theorem low_of_mem_splitWhere {cs w : List Char}
    (h : ∀ c ∈ cs, c.isLower = true ∨ c.isDigit = true ∨ c = '_')
    (hw : w ∈ splitWhere (· == '_') cs) : ∀ c ∈ w, c.isLower = true ∨ c.isDigit = true := by
  intro c hc
  have hsep := not_of_mem_splitWhere hw hc
  rcases h c (mem_of_mem_splitWhere hw hc) with hlower | hdigit | rfl
  · exact .inl hlower
  · exact .inr hdigit
  · exact absurd hsep (by decide)

/-- A name that is its own snake form is canonical. -/
theorem isSnake_of_separate {cs : List Char} (hascii : ∀ c ∈ cs, c.toNat < 0x80)
    (h : separate '_' (upperCamelChars cs) = cs) : IsSnake cs := by
  have hchars : ∀ c ∈ cs, c.isLower = true ∨ c.isDigit = true ∨ c = '_' := by
    intro c hc
    have hmem := hc
    rw [← h] at hmem
    exact lower_of_mem_separate (by decide) isNameChar_upperCamelChars hmem (hascii c hc)
  have hlow : ∀ w ∈ splitWhere (· == '_') cs, ∀ c ∈ w, c.isLower = true ∨ c.isDigit = true :=
    fun w hw => low_of_mem_splitWhere hchars hw
  obtain ⟨first, rest, hsplit⟩ := List.exists_cons_of_ne_nil (splitWhere_ne_nil (· == '_') cs)
  have himage := separate_upperCamelChars_of_low (fun c hc => isCut_of_snakeChar (hchars c hc)) hlow
  rw [h, hsplit] at himage
  rw [hsplit] at hlow
  have hnone : ∀ w ∈ first :: rest, '_' ∉ w := by
    intro w hw hc
    exact absurd (hlow w hw '_' hc) (by decide)
  have hjoined := eq_append_of_splitWhere hsplit
  cases first with
  | nil =>
    -- The name would begin with an underscore.
    cases rest with
    | nil => exact .inl hjoined
    | cons w rest =>
      have hhead := List.head?_dropWhile_not (· == '_') (([] :: w :: rest).flatMap led)
      rw [← himage, hjoined] at hhead
      cases hhead
  | cons c w =>
    have hc : (c == '_') = false := by
      rw [beq_eq_false_iff_ne]
      rintro rfl
      exact hnone _ List.mem_cons_self List.mem_cons_self
    have hdropped : (((c :: w) :: rest).flatMap led).dropWhile (· == '_')
        = (c :: w) ++ rest.flatMap led := by
      rw [List.flatMap_cons, led]
      split <;> simp [hc]
    have hsame : rest.flatMap ('_' :: ·) = rest.flatMap led := by
      rw [hdropped, hjoined] at himage
      exact List.append_cancel_left himage
    have hletters := beginsLow_of_flatMap (List.forall_mem_cons.1 hnone).2 hsame
    have hwords : ∀ v ∈ (c :: w) :: rest, isWord v = true := by
      intro v hv
      refine isWord_iff.2 ⟨?_, hlow v hv⟩
      rintro rfl
      rcases List.mem_cons.1 hv with hv | hv
      · cases hv
      · exact absurd (hletters [] hv) (by decide)
    refine .inr ?_
    rw [hsplit, Bool.and_eq_true, List.all_eq_true, List.all_eq_true, List.tail_cons]
    exact ⟨hwords, hletters⟩

/-- Over ASCII, the field name is told by the wire name that is made from it, and the wire name is the
name itself if and only if the name is canonical: words of lower-case letters and digits with an
underscore between each two, or none, of which all but the first begin with a letter. -/
theorem forms_told {s : String} (h : ∀ c ∈ s.toList, c.toNat < 0x80) :
    upperCamel (snake (upperCamel s)) = upperCamel s
      ∧ (snake (upperCamel s) = s
        ↔ ∃ words : List String, s = join "_" words
          ∧ (∀ w ∈ words, isWord w.toList = true) ∧ ∀ w ∈ words.tail, beginsLow w.toList = true) := by
  refine ⟨upperCamel_snake h, ?_⟩
  rw [← isSnake_iff]
  constructor
  · intro hsame
    have hchars := congrArg String.toList hsame
    simp only [upperCamel, snake, toList_onChars] at hchars
    exact isSnake_of_separate h hchars
  · exact snake_upperCamel

/-- A canonical name with digits, and an acronym, which is not canonical. -/
theorem forms_told_acronym :
    (∀ c ∈ "line2_x".toList, c.toNat < 0x80) ∧ snake (upperCamel "line2_x") = "line2_x"
      ∧ (∀ c ∈ "user_ID".toList, c.toNat < 0x80)
      ∧ upperCamel (snake (upperCamel "user_ID")) = "UserID"
      ∧ ¬∃ words : List String, "user_ID" = join "_" words
        ∧ (∀ w ∈ words, isWord w.toList = true) ∧ ∀ w ∈ words.tail, beginsLow w.toList = true := by
  have hline : ∀ c ∈ "line2_x".toList, c.toNat < 0x80 := by decide
  have huser : ∀ c ∈ "user_ID".toList, c.toNat < 0x80 := by decide
  refine ⟨hline, (forms_told hline).2.2 ⟨["line2", "x"], by decide⟩, huser, ?_, ?_⟩
  · rw [(forms_told huser).1]
    decide
  · rw [← (forms_told huser).2]
    decide

end GoScaffold.Naming
