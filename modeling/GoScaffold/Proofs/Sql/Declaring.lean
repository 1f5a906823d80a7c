import GoScaffold.Proofs.Sql.Splitting
import GoScaffold.Proofs.Text.Capitals

set_option autoImplicit false

/-! # What declares a table

A statement declares a table if and only if it opens with the words for it: after white space,
`CREATE`, perhaps `TEMPORARY`, and `TABLE`, in any case and with ASCII white space between them, and
then no word character (`isTableDeclaration_iff`). -/

namespace GoScaffold.Sql

open Text

/-! ## Characters -/

theorem isBlank_of_isWordChar {c : Char} (h : isWordChar c = true) : isBlank c = false := by
  rw [isWordChar, Bool.or_eq_true, isAlphanum_iff, beq_iff_eq] at h
  rcases h with h | rfl
  · simp [isBlank]
    omega
  · decide

@[simp] theorem isBlank_toUpper (c : Char) : isBlank c.toUpper = isBlank c := by
  rcases toUpper_eq_or c with h | ⟨hlo, hhi, h⟩
  · rw [h]
  · have hletter {d : Char} (hd : 65 ≤ d.toNat ∧ d.toNat ≤ 122) : isBlank d = false := by
      simp [isBlank]
      omega
    rw [hletter (by omega), hletter (by omega)]

@[simp] theorem isWordChar_toUpper (c : Char) : isWordChar c.toUpper = isWordChar c := by
  rw [Bool.eq_iff_iff]
  simp only [isWordChar, Bool.or_eq_true, beq_iff_eq, isAlphanum_toUpper,
    toUpper_eq_iff (d := '_') rfl]

/-! ## Words and gaps -/

/-- White space between two words. -/
def IsGap (b : List Char) : Prop := b ≠ [] ∧ ∀ c ∈ b, isAsciiBlank c = true

theorem afterBlanks?_eq_some {cs rest : List Char} :
    afterBlanks? cs = some rest ↔
      ∃ b, IsGap b ∧ cs = b ++ rest ∧ ∀ c ∈ rest.head?, isAsciiBlank c = false := by
  constructor
  · intro h
    cases cs with
    | nil => simp [afterBlanks?] at h
    | cons c cs =>
      simp only [afterBlanks?, Option.ite_none_right_eq_some, Option.some.injEq] at h
      obtain ⟨hc, rfl⟩ := h
      refine ⟨c :: cs.takeWhile isAsciiBlank, ⟨List.cons_ne_nil _ _, ?_⟩, ?_, ?_⟩
      · exact List.forall_mem_cons.2 ⟨hc, List.all_eq_true.1 List.all_takeWhile⟩
      · rw [List.cons_append, List.takeWhile_append_dropWhile]
      · intro d hd
        have := List.head?_dropWhile_not isAsciiBlank cs
        rw [Option.mem_def.1 hd] at this
        simpa using this
  · rintro ⟨b, ⟨hne, hb⟩, rfl, hrest⟩
    obtain ⟨c, b, rfl⟩ := List.exists_cons_of_ne_nil hne
    obtain ⟨hc, hb⟩ := List.forall_mem_cons.1 hb
    rw [List.cons_append, afterBlanks?, if_pos hc, List.dropWhile_append_of_pos hb]
    cases rest with
    | nil => rfl
    | cons d rest => rw [List.dropWhile_cons_of_neg (by simp [hrest d rfl])]

/-- A word and the white space after it. -/
theorem afterWord?_eq_some {word cs rest : List Char} :
    (dropPrefix? word cs).bind afterBlanks? = some rest ↔
      ∃ b, IsGap b ∧ cs = word ++ (b ++ rest) ∧ ∀ c ∈ rest.head?, isAsciiBlank c = false := by
  simp only [Option.bind_eq_some_iff, dropPrefix?_eq_some, afterBlanks?_eq_some]
  constructor
  · rintro ⟨_, rfl, b, hb, rfl, hrest⟩
    exact ⟨b, hb, rfl, hrest⟩
  · rintro ⟨b, hb, rfl, hrest⟩
    exact ⟨_, rfl, b, hb, rfl, hrest⟩

theorem startsWithTable_iff {cs : List Char} :
    startsWithTable cs = true ↔
      ∃ rest, cs = "TABLE".toList ++ rest ∧ ∀ c ∈ rest.head?, isWordChar c = false := by
  rw [startsWithTable]
  cases hdrop : dropPrefix? "TABLE".toList cs with
  | none =>
    simp only [Bool.false_eq_true, false_iff, not_exists, not_and]
    intro rest hcs
    rw [dropPrefix?_eq_some.2 hcs] at hdrop
    exact absurd hdrop (by simp)
  | some rest =>
    rw [dropPrefix?_eq_some] at hdrop
    subst hdrop
    cases rest with
    | nil => simp
    | cons c rest => simp

/-! ## Openings -/

/-- The words that open a declaration of a table, in capitals. -/
inductive Opens : List Char → Prop
  | table {b : List Char} (gap : IsGap b) : Opens ("CREATE".toList ++ (b ++ "TABLE".toList))
  | temporary {b b' : List Char} (gap : IsGap b) (gap' : IsGap b') :
    Opens ("CREATE".toList ++ (b ++ ("TEMPORARY".toList ++ (b' ++ "TABLE".toList))))

/-- The words are looked for in capitals, without the white space at the ends. -/
theorem isTableDeclaration_iff_opens {cs : List Char} :
    isTableDeclaration cs = true ↔
      ∃ w rest, raise (trimBlank cs) = w ++ rest ∧ Opens w
        ∧ ∀ c ∈ rest.head?, isWordChar c = false := by
  rw [isTableDeclaration]
  generalize raise (trimBlank cs) = cs
  -- After `CREATE` both words are tried, and neither begins the other.
  constructor
  · intro h
    cases hcreate : (dropPrefix? "CREATE".toList cs).bind afterBlanks? with
    | none =>
      rw [hcreate] at h
      exact absurd h Bool.false_ne_true
    | some rest =>
      obtain ⟨b, hb, rfl, -⟩ := afterWord?_eq_some.1 hcreate
      simp only [hcreate, Bool.or_eq_true, startsWithTable_iff] at h
      rcases h with ⟨rest, rfl, hrest⟩ | h
      · exact ⟨_, rest, by simp only [List.append_assoc], .table hb, hrest⟩
      · cases htemporary : (dropPrefix? "TEMPORARY".toList rest).bind afterBlanks? with
        | none =>
          rw [htemporary] at h
          exact absurd h Bool.false_ne_true
        | some rest' =>
          obtain ⟨b', hb', rfl, -⟩ := afterWord?_eq_some.1 htemporary
          simp only [htemporary, startsWithTable_iff] at h
          obtain ⟨rest, rfl, hrest⟩ := h
          exact ⟨_, rest, by simp only [List.append_assoc], .temporary hb hb', hrest⟩
  · rintro ⟨w, rest, rfl, hw, hrest⟩
    have hafter {word next b more : List Char} (hb : IsGap b) (hnext : next.head? = some 'T') :
        (dropPrefix? word (word ++ (b ++ (next ++ more)))).bind afterBlanks? = some (next ++ more) := by
      refine afterWord?_eq_some.2 ⟨b, hb, rfl, fun c hc => ?_⟩
      rw [List.head?_append, hnext] at hc
      obtain rfl : 'T' = c := Option.some.inj hc
      rfl
    have htable : startsWithTable ("TABLE".toList ++ rest) = true :=
      startsWithTable_iff.2 ⟨rest, rfl, hrest⟩
    cases hw with
    | @table b hb =>
      have hshort : "TABLE".toList.head? = some 'T' := rfl
      simp only [List.append_assoc, hafter hb hshort, htable, Bool.true_or]
    | @temporary b b' hb hb' =>
      have hlong : "TEMPORARY".toList.head? = some 'T' := rfl
      have hshort : "TABLE".toList.head? = some 'T' := rfl
      simp only [List.append_assoc, hafter hb hlong, hafter hb' hshort, htable, Bool.or_true]

/-- What opens a declaration ends in a letter. -/
theorem Opens.getLast? {w : List Char} (h : Opens (raise w)) :
    ∀ c ∈ w.getLast?, c.toUpper = 'E' := by
  have hlast : (raise w).getLast? = some 'E' := by
    generalize raise w = u at h
    cases h <;> simp only [List.getLast?_append] <;> rfl
  intro c hc
  rw [raise, List.getLast?_map, Option.mem_def.1 hc] at hlast
  exact Option.some.inj hlast

/-- What opens a declaration begins with a letter. -/
theorem Opens.exists_cons {w : List Char} (h : Opens (raise w)) :
    ∃ c v, w = c :: v ∧ c.toUpper = 'C' := by
  have hfirst : (raise w).head? = some 'C' := by
    generalize raise w = u at h
    cases h <;> rfl
  cases w with
  | nil => exact absurd hfirst (by simp)
  | cons c v => exact ⟨c, v, rfl, Option.some.inj hfirst⟩

/-- What opens a declaration is words and white space. -/
theorem Opens.isBlank_or_isWordChar {w : List Char} (h : Opens w) :
    ∀ c ∈ w, isBlank c = true ∨ isWordChar c = true := by
  have hgap {b : List Char} (hb : IsGap b) : ∀ c ∈ b, isBlank c = true ∨ isWordChar c = true :=
    fun c hc => Or.inl (isBlank_of_isAsciiBlank (hb.2 c hc))
  have hcreate : ∀ c ∈ "CREATE".toList, isBlank c = true ∨ isWordChar c = true := by decide
  have htemporary : ∀ c ∈ "TEMPORARY".toList, isBlank c = true ∨ isWordChar c = true := by decide
  have htable : ∀ c ∈ "TABLE".toList, isBlank c = true ∨ isWordChar c = true := by decide
  cases h with
  | table gap => exact List.forall_mem_append.2 ⟨hcreate, List.forall_mem_append.2 ⟨hgap gap, htable⟩⟩
  | temporary gap gap' =>
    exact List.forall_mem_append.2 ⟨hcreate, List.forall_mem_append.2 ⟨hgap gap,
      List.forall_mem_append.2 ⟨htemporary, List.forall_mem_append.2 ⟨hgap gap', htable⟩⟩⟩⟩

/-- A statement declares a table if and only if it opens, after white space, with the words for
it. -/
theorem isTableDeclaration_iff {cs : List Char} :
    isTableDeclaration cs = true ↔
      ∃ lead w rest, cs = lead ++ (w ++ rest) ∧ (∀ c ∈ lead, isBlank c = true) ∧ Opens (raise w)
        ∧ ∀ c ∈ rest.head?, isWordChar c = false := by
  rw [isTableDeclaration_iff_opens, trimBlank, trimWhere]
  constructor
  · rintro ⟨v, r, htext, hv, hr⟩
    obtain ⟨trail, htrail, hblank⟩ := exists_dropEndWhile isBlank (cs.dropWhile isBlank)
    obtain ⟨w, t, hkept, rfl, rfl⟩ := List.map_eq_append_iff.1 htext
    refine ⟨cs.takeWhile isBlank, w, t ++ trail, ?_, List.all_eq_true.1 List.all_takeWhile, hv, ?_⟩
    · rw [← List.append_assoc w, ← hkept, ← htrail, List.takeWhile_append_dropWhile]
    -- What follows the words may have been trimmed away, down to white space.
    · intro c hc
      cases t with
      | nil =>
        have hc : isBlank c = true := hblank c (List.mem_of_head? hc)
        cases hword : isWordChar c with
        | false => rfl
        | true => exact absurd hc (by simp [isBlank_of_isWordChar hword])
      | cons d t =>
        obtain rfl : d = c := Option.some.inj hc
        simpa using hr d.toUpper rfl
  · rintro ⟨lead, w, rest, rfl, hlead, hw, hrest⟩
    obtain ⟨c, more, rfl, hupper⟩ := hw.exists_cons
    have hc : isBlank c = false := by
      rw [← isBlank_toUpper, hupper]
      rfl
    have hlast : ∀ d ∈ (c :: more).getLast?, isBlank d = false := by
      intro d hd
      rw [← isBlank_toUpper, hw.getLast? d hd]
      rfl
    have htrim : dropEndWhile isBlank ((lead ++ (c :: more ++ rest)).dropWhile isBlank)
        = c :: more ++ dropEndWhile isBlank rest := by
      rw [List.dropWhile_append_of_pos hlead, List.cons_append,
        List.dropWhile_cons_of_neg (by simp [hc]), ← List.cons_append, dropEndWhile_append _ _ hlast]
    refine ⟨_, raise (dropEndWhile isBlank rest), by rw [htrim, raise_append], hw, fun d hd => ?_⟩
    obtain ⟨trail, htrail, -⟩ := exists_dropEndWhile isBlank rest
    cases hkept : dropEndWhile isBlank rest with
    | nil => simp [hkept] at hd
    | cons e kept =>
      rw [hkept] at htrail hd
      obtain rfl : e.toUpper = d := by simpa using hd
      rw [isWordChar_toUpper]
      exact hrest e (by rw [htrail]; rfl)

/-- A text that declares a table holds text. -/
theorem holdsText_of_isTableDeclaration {cs : List Char} (h : isTableDeclaration cs = true) :
    holdsText cs = true := by
  obtain ⟨lead, w, rest, rfl, hlead, hw, -⟩ := isTableDeclaration_iff.1 h
  obtain ⟨c, more, rfl, hupper⟩ := hw.exists_cons
  refine holdsText_of_first hlead ?_ ?_
  · rw [← isBlank_toUpper, hupper]
    rfl
  · rintro rfl
    exact absurd hupper (by decide)

end GoScaffold.Sql
