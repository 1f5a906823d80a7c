import GoScaffold.Naming
import GoScaffold.Proofs.Text.Capitals

set_option autoImplicit false

/-! # The characters of names

Whatever a table or a column is called, the names made from it hold ASCII letters and digits and
characters beyond ASCII, and routes hold hyphens besides. So no mark of Go code or of the document
stands in a name, and where a name ends can be told from what follows it. -/

namespace GoScaffold.Text

/-- An ASCII letter or digit, or a character beyond ASCII. -/
def isNameChar (c : Char) : Bool := c.isAlphanum || decide (0x80 ≤ c.toNat)

theorem isNameChar_of_isAlphanum {c : Char} (h : c.isAlphanum = true) : isNameChar c = true := by
  rw [isNameChar, h, Bool.true_or]

theorem isNameChar_of_le {c : Char} (h : 0x80 ≤ c.toNat) : isNameChar c = true := by
  rw [isNameChar, decide_eq_true h, Bool.or_true]

theorem isNameChar_of_isAlphanumeric {c : Char} (h : isAlphanumeric c = true) :
    isNameChar c = true := by
  by_cases hascii : c.toNat < 0x80
  · rw [isAlphanumeric_of_ascii hascii] at h
    exact isNameChar_of_isAlphanum h
  · exact isNameChar_of_le (by omega)

/-! ## Fronts -/

/-- Whether texts with these fronts may be the same. -/
def compatible (a b : List Char) : Bool := a.isPrefixOf b || b.isPrefixOf a

theorem compatible_of_append {a b s t : List Char} (h : a ++ s = b ++ t) : compatible a b = true := by
  rw [compatible, Bool.or_eq_true, List.isPrefixOf_iff_prefix, List.isPrefixOf_iff_prefix]
  exact List.prefix_or_prefix_of_prefix (List.prefix_append a s) (h ▸ List.prefix_append b t)

/-- A text that begins alike when it is moved past another goes on with a character of the other. -/
theorem mem_of_shifted {w : List Char} (hne : w ≠ []) {d : Char} {p x y : List Char}
    (h : w ++ (p ++ x) = p ++ d :: y) : d ∈ w := by
  induction hn : p.length using Nat.strongRecOn generalizing p with
  | ind n ih =>
    rcases List.append_eq_append_iff.1 h with ⟨a, rfl, ha⟩ | ⟨c, rfl, hc⟩
    · -- `p` begins with `w`: go on with what is left of it.
      have hshorter : a.length < n := by
        have := List.length_pos_iff.2 hne
        rw [← hn, List.length_append]
        omega
      rw [List.append_assoc] at ha
      exact ih a.length hshorter ha rfl
    · cases c with
      | nil =>
        rw [List.nil_append] at hc
        cases p with
        | nil => exact absurd rfl hne
        | cons e p =>
          rw [List.cons_append, List.cons.injEq] at hc
          simp [hc.1]
      | cons e c =>
        rw [List.cons_append, List.cons.injEq] at hc
        simp [hc.1]

/-! ## Letter case -/

theorem toLower_of_isUpper {c : Char} (h : c.isUpper = true) : c.toLower.toNat = c.toNat + 32 := by
  obtain ⟨hlo, hhi⟩ := isUpper_iff.1 h
  have hcode : c.toLower.val = c.val + 32 := by
    have hmoved : c.toLower = _ := dif_pos (of_decide_eq_true h)
    rw [hmoved]
    rfl
  show c.toLower.val.toNat = _
  rw [hcode, UInt32.toNat_add]
  show (c.toNat + 32) % 4294967296 = _
  omega

theorem toLower_of_not_isUpper {c : Char} (h : c.isUpper = false) : c.toLower = c :=
  dif_neg (of_decide_eq_false h)

theorem isAlphanum_toLower {c : Char} (h : c.isAlphanum = true) : c.toLower.isAlphanum = true := by
  cases hupper : c.isUpper with
  | true =>
    have hlower := toLower_of_isUpper hupper
    rw [isUpper_iff] at hupper
    rw [isAlphanum_iff]
    omega
  | false => rwa [toLower_of_not_isUpper hupper]

/-- Whether a number is the code point of a character that names may hold. -/
def isNameCode (n : Nat) : Bool :=
  (decide (0x80 ≤ n) || (Char.ofNat n).isAlphanum)
    && (decide (n < 0xD800) || (decide (0xDFFF < n) && decide (n < 0x110000)))

theorem toNat_ofNat_of_isNameCode {n : Nat} (h : isNameCode n = true) : (Char.ofNat n).toNat = n := by
  simp only [isNameCode, Bool.and_eq_true, Bool.or_eq_true, decide_eq_true_eq] at h
  rw [Char.ofNat, dif_pos h.2]
  rfl

theorem isNameChar_ofNat {n : Nat} (h : isNameCode n = true) : isNameChar (Char.ofNat n) = true := by
  have hcode := toNat_ofNat_of_isNameCode h
  simp only [isNameCode, Bool.and_eq_true, Bool.or_eq_true, decide_eq_true_eq] at h
  rcases h.1 with hbeyond | halphanum
  · exact isNameChar_of_le (by omega)
  · exact isNameChar_of_isAlphanum halphanum

/-- Whether every code point that a run sends somewhere becomes one of a name: the run as a whole
stays beyond ASCII and beside the surrogates, or it has one code point. -/
def CaseRun.staysName (r : CaseRun) : Bool :=
  (r.first == r.last && isNameCode r.target)
    || (decide (0x80 ≤ r.target)
      && (decide (r.target + (r.last - r.first) < 0xD800)
        || (decide (0xDFFF < r.target) && decide (r.target + (r.last - r.first) < 0x110000))))

/-- Where a run sends one of its code points. -/
def CaseRun.image (r : CaseRun) (n : Nat) : Nat := r.target + (n - r.first)

theorem CaseRun.isNameCode_image {r : CaseRun} (hr : r.staysName = true) {n : Nat}
    (hn : r.has n = true) : isNameCode (r.image n) = true := by
  unfold image
  simp only [has, Bool.and_eq_true, decide_eq_true_eq] at hn
  obtain ⟨⟨hfirst, hlast⟩, -⟩ := hn
  simp only [staysName, Bool.or_eq_true, Bool.and_eq_true, beq_iff_eq, decide_eq_true_eq] at hr
  rcases hr with ⟨hone, hcode⟩ | ⟨hbeyond, hvalid⟩
  · have hzero : n - r.first = 0 := by omega
    rw [hzero, Nat.add_zero, hcode]
  · simp only [isNameCode, Bool.and_eq_true, Bool.or_eq_true, decide_eq_true_eq]
    exact ⟨Or.inl (by omega), by omega⟩

/-- A character is mapped by an expansion, by a run, or to itself. -/
theorem mapCase_cases (expansions : List (Nat × List Nat)) (runs : List CaseRun) (c : Char) :
    (∃ e ∈ expansions, e.1 = c.toNat ∧ mapCase expansions runs c = e.2.map Char.ofNat)
      ∨ (∃ r ∈ runs, r.has c.toNat = true
        ∧ mapCase expansions runs c = [Char.ofNat (r.image c.toNat)])
      ∨ mapCase expansions runs c = [c] := by
  unfold mapCase
  split
  · next ns hns =>
    obtain ⟨before, after, hmem, -⟩ := List.lookup_eq_some_iff.1 hns
    exact .inl ⟨(c.toNat, ns), by rw [hmem]; simp, rfl, rfl⟩
  · split
    · next n hn =>
      obtain ⟨r, hr, rfl⟩ := Option.map_eq_some_iff.1 hn
      have hhas : r.has c.toNat = true := by
        simpa using List.find?_some hr
      exact .inr (.inl ⟨r, List.mem_of_find?_eq_some hr, hhas, rfl⟩)
    · exact .inr (.inr rfl)

/-- What a character is mapped to stands in the tables, or it is the character. -/
theorem mem_mapCase {expansions : List (Nat × List Nat)} {runs : List CaseRun} {c d : Char}
    (hd : d ∈ mapCase expansions runs c) :
    (∃ e ∈ expansions, e.1 = c.toNat ∧ ∃ n ∈ e.2, d = Char.ofNat n)
      ∨ (∃ r ∈ runs, r.has c.toNat = true ∧ d = Char.ofNat (r.image c.toNat))
      ∨ d = c := by
  rcases mapCase_cases expansions runs c with ⟨e, he, hcode, hmap⟩ | ⟨r, hr, hhas, hmap⟩ | hmap
  · rw [hmap] at hd
    obtain ⟨n, hn, rfl⟩ := List.mem_map.1 hd
    exact .inl ⟨e, he, hcode, n, hn, rfl⟩
  · rw [hmap, List.mem_singleton] at hd
    exact .inr (.inl ⟨r, hr, hhas, hd⟩)
  · rw [hmap, List.mem_singleton] at hd
    exact .inr (.inr hd)

/-- A mapping whose tables lead into names keeps the characters of names. -/
theorem isNameChar_mapCase {expansions : List (Nat × List Nat)} {runs : List CaseRun}
    (hexpansions : ∀ e ∈ expansions, e.2.all isNameCode = true)
    (hruns : ∀ r ∈ runs, r.staysName = true) {c d : Char} (hc : isNameChar c = true)
    (hd : d ∈ mapCase expansions runs c) : isNameChar d = true := by
  rcases mem_mapCase hd with ⟨e, he, -, n, hn, rfl⟩ | ⟨r, hr, hhas, rfl⟩ | rfl
  · exact isNameChar_ofNat (List.all_eq_true.1 (hexpansions e he) n hn)
  · exact isNameChar_ofNat (CaseRun.isNameCode_image (hruns r hr) hhas)
  · exact hc

theorem staysName_of_mem_upperRuns : ∀ r ∈ upperRuns, r.staysName = true := by decide +kernel

theorem isNameChar_toUpperCase {c d : Char} (hc : isNameChar c = true) (hd : d ∈ toUpperCase c) :
    isNameChar d = true := by
  have hexpansions : ∀ e ∈ upperExpansions, e.2.all isNameCode = true := by decide +kernel
  unfold toUpperCase at hd
  split at hd
  · next hascii =>
    rw [List.mem_singleton] at hd
    rw [hd]
    simp only [isNameChar, Bool.or_eq_true, decide_eq_true_eq] at hc
    refine isNameChar_of_isAlphanum ?_
    rw [isAlphanum_toUpper]
    exact hc.resolve_right (by omega)
  · exact isNameChar_mapCase hexpansions staysName_of_mem_upperRuns hc hd

theorem isNameChar_toLowerCase {c d : Char} (hc : isNameChar c = true) (hd : d ∈ toLowerCase c) :
    isNameChar d = true := by
  have hexpansions : ∀ e ∈ lowerExpansions, e.2.all isNameCode = true := by decide +kernel
  have hruns : ∀ r ∈ lowerRuns, r.staysName = true := by decide +kernel
  unfold toLowerCase at hd
  split at hd
  · next hascii =>
    rw [List.mem_singleton] at hd
    rw [hd]
    simp only [isNameChar, Bool.or_eq_true, decide_eq_true_eq] at hc
    exact isNameChar_of_isAlphanum (isAlphanum_toLower (hc.resolve_right (by omega)))
  · exact isNameChar_mapCase hexpansions hruns hc hd

/-! ## Pieces -/

theorem splitOnce_append {sep : Char} {before : List Char} (h : sep ∉ before) (after : List Char) :
    splitOnce sep (before ++ sep :: after) = some (before, after) := by
  induction before with
  | nil => simp [splitOnce]
  | cons c before ih =>
    rw [List.mem_cons, not_or] at h
    rw [List.cons_append, splitOnce, if_neg (Ne.symm h.1), ih h.2]
    rfl

/-- A text without the cut goes before what is cut off first. -/
theorem splitOnce_append_of_notMem {sep : Char} {front : List Char} (h : sep ∉ front) (cs : List Char) :
    splitOnce sep (front ++ cs)
      = (splitOnce sep cs).map fun (before, after) => (front ++ before, after) := by
  induction front with
  | nil =>
    cases hcs : splitOnce sep cs with
    | none => exact hcs
    | some cut => exact hcs
  | cons c front ih =>
    rw [List.mem_cons, not_or] at h
    rw [List.cons_append, splitOnce, if_neg (Ne.symm h.1), ih h.2, Option.map_map]
    rfl

/-- A text that holds the cut is cut. -/
theorem exists_splitOnce {sep : Char} {cs : List Char} (h : sep ∈ cs) :
    ∃ before after, splitOnce sep cs = some (before, after) := by
  obtain ⟨before, after, rfl, hbefore⟩ := List.eq_append_cons_of_mem h
  exact ⟨before, after, splitOnce_append hbefore after⟩

/-- The pieces between cuts hold no character that is cut at. -/
theorem not_of_mem_splitWhere {p : Char → Bool} {cs piece : List Char}
    (h : piece ∈ splitWhere p cs) {c : Char} (hc : c ∈ piece) : p c = false := by
  induction cs generalizing piece with
  | nil =>
    rw [splitWhere, List.mem_singleton] at h
    rw [h] at hc
    exact absurd hc List.not_mem_nil
  | cons d ds ih =>
    rw [splitWhere] at h
    by_cases hd : p d = true
    · rw [if_pos hd, List.mem_cons] at h
      rcases h with rfl | h
      · exact absurd hc List.not_mem_nil
      · exact ih h hc
    · obtain ⟨first, rest, hsplit⟩ := List.exists_cons_of_ne_nil (splitWhere_ne_nil p ds)
      rw [if_neg hd, hsplit, List.mem_cons] at h
      rcases h with rfl | h
      · rcases List.mem_cons.1 hc with rfl | hc
        · exact Bool.eq_false_iff.2 hd
        · exact ih (by rw [hsplit]; exact List.mem_cons_self ..) hc
      · exact ih (by rw [hsplit]; exact List.mem_cons_of_mem _ h) hc

end GoScaffold.Text

namespace GoScaffold.Naming

open Text

/-! ## Names -/

theorem isNameChar_capitalize {cs : List Char} (h : ∀ c ∈ cs, isNameChar c = true) :
    ∀ d ∈ capitalize cs, isNameChar d = true := by
  cases cs with
  | nil => simp [capitalize]
  | cons c cs =>
    intro d hd
    rcases List.mem_append.1 hd with hd | hd
    · exact isNameChar_toUpperCase (h c (List.mem_cons_self ..)) hd
    · exact h d (List.mem_cons_of_mem _ hd)

theorem isNameChar_upperCamelChars {cs : List Char} :
    ∀ c ∈ upperCamelChars cs, isNameChar c = true := by
  intro c hc
  obtain ⟨piece, hpiece, hc⟩ := List.mem_flatMap.1 hc
  refine isNameChar_capitalize (fun d hd => ?_) c hc
  have halphanumeric := not_of_mem_splitWhere hpiece hd
  rw [Bool.not_eq_false'] at halphanumeric
  exact isNameChar_of_isAlphanumeric halphanumeric

theorem isNameChar_upperCamel {s : String} : ∀ c ∈ (upperCamel s).toList, isNameChar c = true := by
  rw [upperCamel, toList_onChars]
  exact isNameChar_upperCamelChars

/-- Taking words apart adds nothing but separators. -/
theorem mem_separate {sep : Char} {cs : List Char} (h : ∀ c ∈ cs, isNameChar c = true) {d : Char}
    (hd : d ∈ separate sep cs) : d = sep ∨ isNameChar d = true := by
  obtain ⟨c, hc, hd⟩ := List.mem_flatMap.1 ((List.dropWhile_sublist _).subset hd)
  split at hd
  · rcases List.mem_cons.1 hd with rfl | hd
    · exact Or.inl rfl
    · exact Or.inr (isNameChar_toLowerCase (h c hc) hd)
  · rw [List.mem_singleton] at hd
    rw [hd]
    exact Or.inr (h c hc)

theorem mem_kebab {s : String} {d : Char} (hd : d ∈ (kebab s).toList) :
    d = '-' ∨ isNameChar d = true := by
  rw [kebab, toList_onChars] at hd
  exact mem_separate isNameChar_upperCamelChars hd

theorem mem_snake_upperCamel {s : String} {d : Char} (hd : d ∈ (snake (upperCamel s)).toList) :
    d = '_' ∨ isNameChar d = true := by
  rw [snake, toList_onChars] at hd
  exact mem_separate isNameChar_upperCamel hd

end GoScaffold.Naming
