import GoScaffold.Proofs.Grammar.Yields

set_option autoImplicit false

/-! # Expressions in parentheses

A parenthesised expression is taken up to the parenthesis that closes it, and the string literals in it
are skipped whole (`Scan.stringsIn`). Where an expression ends depends on the text after it, but which
strings are skipped in it does not: none of them reaches over its end. -/

namespace GoScaffold.Grammar.Scan

/-- The string literals in a text, taken from the left; `pending` characters of one are still to be
passed. -/
def stringsIn : Nat → List Char → List (List Char)
  | _, [] => []
  | pending + 1, _ :: cs => stringsIn pending cs
  | 0, c :: cs =>
    match stringLiteral (c :: cs) with
    | some (lexeme, _) => lexeme :: stringsIn (lexeme.length - 1) cs
    | none => stringsIn 0 cs

variable {q c : Char} {cs tail w r : List Char}

/-! ## Strings at the end of a text -/

theorem behind_eq_some {cut : Option (List Char × List Char)} :
    behind c cut = some (w, r) ↔ ∃ v, cut = some (v, r) ∧ w = c :: v := by
  cases cut with
  | none => simp [behind]
  | some cut =>
    obtain ⟨v, s⟩ := cut
    simp only [behind, Option.map_some, Option.some.injEq, Prod.mk.injEq]
    constructor
    · rintro ⟨rfl, rfl⟩
      exact ⟨v, ⟨rfl, rfl⟩, rfl⟩
    · rintro ⟨u, ⟨rfl, rfl⟩, rfl⟩
      exact ⟨rfl, rfl⟩

theorem behind_pair_eq_some {d : Char} {cut : Option (List Char × List Char)} :
    behind c (behind d cut) = some (w, r) ↔ ∃ u, cut = some (u, r) ∧ w = c :: d :: u := by
  simp [behind_eq_some]

theorem stringEnd_ne_nil (h : stringEnd q cs = some (w, r)) : w ≠ [] := by
  rintro rfl
  fun_cases stringEnd q cs <;> simp_all [stringEnd, behind_eq_some]

/-- What is a string up to the end of a text is one before anything but another quote. -/
theorem stringEnd_append (hq : q ≠ '\\') (h : stringEnd q cs = some (w, r))
    (htail : tail.head? ≠ some q) : stringEnd q (cs ++ tail) = some (w, r ++ tail) := by
  fun_induction stringEnd q cs generalizing w r with
  | case1 => cases h
  | case2 =>
    obtain ⟨rfl, rfl⟩ := Prod.mk.inj (Option.some.inj h)
    cases tail with
    | nil => simp [stringEnd]
    | cons d tail =>
      have hd : d ≠ q := by simpa using htail
      simp [stringEnd, hq, hd]
  | case3 c hc => cases h
  | case4 d cs ih =>
    obtain ⟨u, hu, rfl⟩ := behind_pair_eq_some.1 h
    rw [List.cons_append, List.cons_append, stringEnd, if_pos rfl, ih hu]
    rfl
  | case5 cs hback ih =>
    obtain ⟨u, hu, rfl⟩ := behind_pair_eq_some.1 h
    rw [List.cons_append, List.cons_append, stringEnd, if_neg hback, if_pos rfl, if_pos rfl, ih hu]
    rfl
  | case6 d cs hback hd =>
    obtain ⟨rfl, rfl⟩ := Prod.mk.inj (Option.some.inj h)
    rw [List.cons_append, List.cons_append, stringEnd, if_neg hback, if_pos rfl, if_neg hd]
  | case7 c d cs hback hc ih =>
    obtain ⟨v, hv, rfl⟩ := behind_eq_some.1 h
    have ih := ih hv
    rw [List.cons_append] at ih
    rw [List.cons_append, List.cons_append, stringEnd, if_neg hback, if_neg hc, ih]
    rfl

/-- A string that ends before the end of a text is one whatever follows there. -/
theorem exists_stringEnd_of_append (h : stringEnd q (cs ++ tail) = some (w, r))
    (hw : w.length ≤ cs.length) : ∃ r', stringEnd q cs = some (w, r') := by
  fun_induction stringEnd q cs generalizing w with
  | case1 => exact absurd (List.length_eq_zero_iff.1 (Nat.le_zero.1 hw)) (stringEnd_ne_nil h)
  | case2 =>
    cases tail with
    | nil => exact ⟨r, by simpa [stringEnd] using h⟩
    | cons d tail =>
      have hlong : ∀ v, w ≠ q :: d :: v := by
        rintro v rfl
        simp at hw
      simp only [List.singleton_append, stringEnd, if_true] at h
      split at h
      · obtain ⟨u, hu, rfl⟩ := behind_pair_eq_some.1 h
        exact absurd rfl (hlong u)
      · split at h
        · obtain ⟨u, hu, rfl⟩ := behind_pair_eq_some.1 h
          exact absurd rfl (hlong u)
        · obtain ⟨rfl, -⟩ := Prod.mk.inj (Option.some.inj h)
          exact ⟨[], by simp⟩
  | case3 c hc =>
    -- one character that is no quote is not all of a string
    cases tail with
    | nil => simp [stringEnd, hc] at h
    | cons d tail =>
      simp only [List.singleton_append, stringEnd, if_neg hc] at h
      split at h
      · obtain ⟨u, hu, rfl⟩ := behind_pair_eq_some.1 h
        simp at hw
      · obtain ⟨v, hv, rfl⟩ := behind_eq_some.1 h
        exact absurd (by simpa using hw) (stringEnd_ne_nil hv)
  | case4 d cs ih =>
    rw [List.cons_append, List.cons_append, stringEnd, if_pos rfl] at h
    obtain ⟨u, hu, rfl⟩ := behind_pair_eq_some.1 h
    obtain ⟨r', hr'⟩ := ih hu (by simpa using hw)
    exact ⟨r', by rw [hr']; rfl⟩
  | case5 cs hback ih =>
    rw [List.cons_append, List.cons_append, stringEnd, if_neg hback, if_pos rfl, if_pos rfl] at h
    obtain ⟨u, hu, rfl⟩ := behind_pair_eq_some.1 h
    obtain ⟨r', hr'⟩ := ih hu (by simpa using hw)
    exact ⟨r', by rw [hr']; rfl⟩
  | case6 d cs hback hd =>
    rw [List.cons_append, List.cons_append, stringEnd, if_neg hback, if_pos rfl, if_neg hd] at h
    obtain ⟨rfl, rfl⟩ := Prod.mk.inj (Option.some.inj h)
    exact ⟨_, rfl⟩
  | case7 c d cs hback hc ih =>
    rw [List.cons_append, List.cons_append, stringEnd, if_neg hback, if_neg hc] at h
    obtain ⟨v, hv, rfl⟩ := behind_eq_some.1 h
    obtain ⟨r', hr'⟩ := ih (by simpa using hv) (by simpa using hw)
    exact ⟨r', by rw [hr']; rfl⟩

/-! ## String literals before a parenthesis -/

theorem stringLiteral_cons_eq (c : Char) (cs : List Char) :
    stringLiteral (c :: cs) = if c = '\'' ∨ c = '"' then behind c (stringEnd c cs) else none := by
  have hquote (q : Char) : chain (word [q]) (stringEnd q) (c :: cs)
      = if c = q then behind c (stringEnd c cs) else none := by
    by_cases hc : c = q
    · subst hc
      simp [chain, word, List.isPrefixOf?, behind]
    · simp [chain, word, List.isPrefixOf?, hc, Ne.symm hc]
  rw [stringLiteral, either, hquote, hquote]
  by_cases hsingle : c = '\''
  · have hdouble : c ≠ '"' := by
      rw [hsingle]
      decide
    simp [hsingle]
  · simp [hsingle]

/-- A text before a closing parenthesis begins with a string literal of its own exactly where the whole
text begins with one that the parenthesis does not cut. -/
theorem stringLiteral_before_paren (after : List Char) :
    (∃ r, stringLiteral (c :: cs) = some (w, r))
      ↔ (∃ r, stringLiteral (c :: (cs ++ ')' :: after)) = some (w, r)) ∧ w.length ≤ cs.length + 1 := by
  simp only [stringLiteral_cons_eq]
  by_cases hc : c = '\'' ∨ c = '"'
  · have hplain : c ≠ '\\' ∧ ')' ≠ c := by rcases hc with rfl | rfl <;> decide
    simp only [if_pos hc]
    constructor
    · rintro ⟨r, h⟩
      obtain ⟨v, hv, rfl⟩ := behind_eq_some.1 h
      have hwhole : stringEnd c (cs ++ ')' :: after) = some (v, r ++ ')' :: after) :=
        stringEnd_append hplain.1 hv (by simpa using hplain.2)
      have hlength := congrArg List.length (cuts_stringEnd c cs v r hv)
      rw [List.length_append] at hlength
      exact ⟨⟨_, by rw [hwhole]; rfl⟩, by simp; omega⟩
    · rintro ⟨⟨r, h⟩, hw⟩
      obtain ⟨v, hv, rfl⟩ := behind_eq_some.1 h
      obtain ⟨r', hr'⟩ := exists_stringEnd_of_append hv (by simpa using hw)
      exact ⟨r', by rw [hr']; rfl⟩
  · simp [hc]

/-! ## The end of the parentheses -/

/-- Nothing ends before the string that is still to be taken does. -/
theorem length_parenEnd {pending depth : Nat} (h : parenEnd pending depth cs = some (w, r)) :
    pending < w.length := by
  fun_induction parenEnd pending depth cs generalizing w with
  | case1 => cases h
  | case2 pending depth c cs ih =>
    obtain ⟨v, hv, rfl⟩ := behind_eq_some.1 h
    exact Nat.succ_lt_succ (ih hv)
  | case4 cs =>
    obtain ⟨rfl, -⟩ := Prod.mk.inj (Option.some.inj h)
    exact Nat.zero_lt_one
  | _ =>
    obtain ⟨v, -, rfl⟩ := behind_eq_some.1 h
    exact Nat.zero_lt_succ _

theorem parenEnd_ne_nil {pending depth : Nat} (h : parenEnd pending depth cs = some (w, r)) : w ≠ [] :=
  List.length_pos_iff.1 (Nat.zero_lt_of_lt (length_parenEnd h))

/-- The parenthesis that closes the expression is the last character. -/
theorem exists_parenEnd {pending depth : Nat} (h : parenEnd pending depth cs = some (w, r)) :
    ∃ inner, w = inner ++ [')'] := by
  have hbehind {d : Char} {cut : Option (List Char × List Char)} {w : List Char}
      (ih : ∀ {v}, cut = some (v, r) → ∃ inner, v = inner ++ [')'])
      (h : behind d cut = some (w, r)) : ∃ inner, w = inner ++ [')'] := by
    obtain ⟨v, hv, rfl⟩ := behind_eq_some.1 h
    obtain ⟨inner, rfl⟩ := ih hv
    exact ⟨d :: inner, rfl⟩
  fun_induction parenEnd pending depth cs generalizing w with
  | case1 => cases h
  | case2 pending depth c cs ih => exact hbehind ih h
  | case3 depth cs ih => exact hbehind ih h
  | case4 cs =>
    obtain ⟨rfl, -⟩ := Prod.mk.inj (Option.some.inj h)
    exact ⟨[], rfl⟩
  | case5 cs depth hopen ih => exact hbehind ih h
  | case6 depth c cs hopen hclose lexeme rest hstring ih => exact hbehind ih h
  | case7 depth c cs hopen hclose hstring ih => exact hbehind ih h

end GoScaffold.Grammar.Scan
