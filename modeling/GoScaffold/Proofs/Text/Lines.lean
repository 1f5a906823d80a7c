import GoScaffold.Proofs.Text.Paths
import GoScaffold.Text.Lines

set_option autoImplicit false

/-! # Lines and their ends

Written again, each followed by one line feed, the lines of a text are the text with its line ends
normalised (`unlines_lines`). Where only the pairs of a carriage return and a line feed become line
feeds, every line but the last loses one carriage return at its end (`splitWhere_unifyPairs`). Doing so
twice takes more away just where two carriage returns stand before a line feed
(`unifyPairs_unifyPairs_iff`). -/

namespace GoScaffold.Text

/-! ## Line feeds -/

theorem splitWhere_newline_of_notMem {cs : List Char} (h : '\n' ∉ cs) :
    splitWhere (· == '\n') cs = [cs] :=
  splitWhere_of_forall fun _ hc => beq_eq_false_iff_ne.2 fun heq => h (heq ▸ hc)

theorem length_splitWhere_newline (cs : List Char) :
    (splitWhere (· == '\n') cs).length = cs.count '\n' + 1 := by
  induction cs with
  | nil => rfl
  | cons c cs ih =>
    rw [splitWhere, List.count_cons]
    by_cases hc : (c == '\n') = true
    · rw [if_pos hc, if_pos hc, List.length_cons, ih]
    · obtain ⟨piece, pieces, hpieces⟩ := List.exists_cons_of_ne_nil (splitWhere_ne_nil (· == '\n') cs)
      rw [hpieces, List.length_cons] at ih
      rw [if_neg hc, if_neg hc, hpieces, List.length_cons, ih]

/-! ## Lines -/

@[simp] theorem unlines_cons (l : List Char) (ls : List (List Char)) :
    unlines (l :: ls) = l ++ '\n' :: unlines ls := by
  simp [unlines]

@[simp] theorem unlines_append (as bs : List (List Char)) :
    unlines (as ++ bs) = unlines as ++ unlines bs := List.flatMap_append

/-! ## The first line -/

theorem dropReturn_cons_cons (c d : Char) (cs : List Char) :
    dropReturn (c :: d :: cs) = c :: dropReturn (d :: cs) := by
  have hstep : dropLastChar? '\r' (c :: d :: cs) = (dropLastChar? '\r' (d :: cs)).map (c :: ·) := rfl
  rw [dropReturn, dropReturn, hstep]
  cases dropLastChar? '\r' (d :: cs) <;> rfl

/-- A character before a line is kept, unless it is all there is before the line feed and a carriage
return. -/
theorem dropReturn_cons {c : Char} {piece : List Char} (h : piece = [] → c ≠ '\r') :
    dropReturn (c :: piece) = c :: dropReturn piece := by
  cases piece with
  | nil => simp [dropReturn, dropLastChar?, h rfl]
  | cons d ds => exact dropReturn_cons_cons c d ds

theorem dropReturn_concat (cs : List Char) : dropReturn (cs ++ ['\r']) = cs := by
  rw [dropReturn, dropLastChar?_eq_some.2 rfl, Option.getD_some]

theorem dropReturn_of_getLast? {cs : List Char} (h : cs.getLast? ≠ some '\r') : dropReturn cs = cs := by
  cases hdrop : dropLastChar? '\r' cs with
  | none => rw [dropReturn, hdrop, Option.getD_none]
  | some ds =>
    rw [dropLastChar?_eq_some.1 hdrop, List.getLast?_concat] at h
    exact absurd rfl h

theorem dropReturn_eq_self_iff {cs : List Char} : dropReturn cs = cs ↔ cs.getLast? ≠ some '\r' := by
  refine ⟨fun h hlast => ?_, dropReturn_of_getLast?⟩
  obtain ⟨ds, rfl⟩ := List.getLast?_eq_some_iff.1 hlast
  rw [dropReturn_concat] at h
  exact absurd (congrArg List.length h) (by simp)

theorem lineEnds_cons {rest : List (List Char)} (line : List Char) (h : rest ≠ []) :
    lineEnds (line :: rest) = dropReturn line :: lineEnds rest := by
  cases rest with
  | nil => exact absurd rfl h
  | cons next more => rfl

theorem lines_newline (cs : List Char) : lines ('\n' :: cs) = [] :: lines cs :=
  lineEnds_cons [] (splitWhere_ne_nil _ cs)

theorem lines_pair (cs : List Char) : lines ('\r' :: '\n' :: cs) = [] :: lines cs :=
  lineEnds_cons ['\r'] (splitWhere_ne_nil _ cs)

/-- A character that is no part of a line end stands on the first line. -/
theorem unlines_lines_cons {c : Char} {cs : List Char} (hc : c ≠ '\n')
    (hpair : c = '\r' → cs.head? ≠ some '\n') :
    unlines (lines (c :: cs)) = c :: (if cs = [] then ['\n'] else unlines (lines cs)) := by
  obtain ⟨piece, pieces, hpieces⟩ := List.exists_cons_of_ne_nil (splitWhere_ne_nil (· == '\n') cs)
  have hcons : splitWhere (· == '\n') (c :: cs) = (c :: piece) :: pieces := by
    rw [splitWhere, if_neg (by simpa using hc), hpieces]
  rw [lines, lines, hcons, hpieces]
  cases pieces with
  | nil =>
    obtain rfl := eq_of_splitWhere hpieces
    cases cs with
    | nil => rfl
    | cons d ds => rfl
  | cons next more =>
    obtain ⟨sep, rest, hsep, rfl⟩ := exists_of_splitWhere hpieces
    rw [lineEnds_cons _ (List.cons_ne_nil next more), lineEnds_cons _ (List.cons_ne_nil next more),
      if_neg (by simp), unlines_cons, unlines_cons]
    have hreturn : piece = [] → c ≠ '\r' := by
      rintro rfl h
      exact hpair h (by simpa using eq_of_beq hsep)
    rw [dropReturn_cons hreturn]
    rfl

/-! ## Normalised ends -/

/-- What a text lacks for its last line to be ended. -/
def missingEnd (cs : List Char) : List Char := if cs = [] ∨ cs.getLast? = some '\n' then [] else ['\n']

/-- The text with line feeds alone for its line ends, the last line ended like the others. -/
def normalised (cs : List Char) : List Char := unifyPairs cs ++ missingEnd cs

theorem missingEnd_cons {c : Char} {cs : List Char} (h : c = '\n' ∨ cs ≠ []) :
    missingEnd (c :: cs) = missingEnd cs := by
  cases cs with
  | nil =>
    obtain rfl := h.resolve_right fun hne => hne rfl
    rfl
  | cons d ds => simp [missingEnd]

/-- The lines of a text, each followed by one line feed, are the text with its line ends normalised. -/
theorem unlines_lines (cs : List Char) : unlines (lines cs) = normalised cs := by
  rw [normalised]
  fun_induction unifyPairs cs with
  | case1 => rfl
  | case2 cs ih =>
    rw [lines_pair, unlines_cons, ih, missingEnd_cons (.inr (by simp)), missingEnd_cons (.inl rfl)]
    rfl
  | case3 c cs hpair ih =>
    by_cases hc : c = '\n'
    · rw [hc, lines_newline, unlines_cons, ih, missingEnd_cons (.inl rfl)]
      rfl
    · have hnot : c = '\r' → cs.head? ≠ some '\n' := by
        rintro rfl h
        obtain ⟨rest, rfl⟩ := List.head?_eq_some_iff.1 h
        exact hpair rest rfl rfl
      rw [unlines_lines_cons hc hnot, ih]
      split
      · next h => simp [h, hc, missingEnd, unifyPairs]
      · next h => rw [missingEnd_cons (.inr h)]; rfl

/-! ## Pairs -/

/-- The lines but for one carriage return at the end of each that is not the last. -/
def dropReturns : List (List Char) → List (List Char)
  | [] => []
  | [last] => [last]
  | line :: next :: rest => dropReturn line :: dropReturns (next :: rest)

theorem dropReturns_cons {rest : List (List Char)} (line : List Char) (h : rest ≠ []) :
    dropReturns (line :: rest) = dropReturn line :: dropReturns rest := by
  cases rest with
  | nil => exact absurd rfl h
  | cons next more => rfl

/-- What unifying the pairs of a text takes off its lines. -/
theorem splitWhere_unifyPairs (cs : List Char) :
    splitWhere (· == '\n') (unifyPairs cs) = dropReturns (splitWhere (· == '\n') cs) := by
  have hnewline (cs : List Char) :
      splitWhere (· == '\n') ('\n' :: cs) = [] :: splitWhere (· == '\n') cs := rfl
  fun_induction unifyPairs cs with
  | case1 => rfl
  | case2 cs ih =>
    have hpair : splitWhere (· == '\n') ('\r' :: '\n' :: cs) = ['\r'] :: splitWhere (· == '\n') cs := rfl
    rw [hnewline, hpair, dropReturns_cons _ (splitWhere_ne_nil _ cs), ih]
    rfl
  | case3 c cs hpair ih =>
    by_cases hc : c = '\n'
    · rw [hc, hnewline, hnewline, dropReturns_cons _ (splitWhere_ne_nil _ cs), ih]
      rfl
    · obtain ⟨piece, pieces, hpieces⟩ := List.exists_cons_of_ne_nil (splitWhere_ne_nil (· == '\n') cs)
      rw [splitWhere, splitWhere, if_neg (by simpa using hc), if_neg (by simpa using hc), ih, hpieces]
      cases pieces with
      | nil => rfl
      | cons next more =>
        have hreturn : piece = [] → c ≠ '\r' := by
          rintro rfl rfl
          obtain ⟨sep, rest, hsep, rfl⟩ := exists_of_splitWhere hpieces
          exact hpair rest rfl (by rw [eq_of_beq hsep]; rfl)
        rw [dropReturns_cons _ (List.cons_ne_nil next more), dropReturns_cons _ (List.cons_ne_nil next more),
          dropReturn_cons hreturn]

theorem unifyPairs_eq_self_iff {cs : List Char} : unifyPairs cs = cs ↔ ¬['\r', '\n'] <:+: cs := by
  have hlength (cs : List Char) : (unifyPairs cs).length ≤ cs.length := by
    fun_induction unifyPairs cs with
    | case1 => exact Nat.le_refl _
    | case2 cs ih => simp only [List.length_cons]; omega
    | case3 c cs hpair ih => simp only [List.length_cons]; omega
  fun_induction unifyPairs cs with
  | case1 => simp
  | case2 cs ih =>
    refine iff_of_false (fun hsame => ?_) (not_not_intro ⟨[], cs, rfl⟩)
    have hle := hlength cs
    have heq := congrArg List.length hsame
    simp only [List.length_cons] at heq
    omega
  | case3 c cs hpair ih =>
    have hfirst : ¬['\r', '\n'] <+: c :: cs := by
      rintro ⟨rest, h⟩
      obtain ⟨rfl, rfl⟩ := List.cons.inj h
      exact hpair rest rfl rfl
    calc c :: unifyPairs cs = c :: cs ↔ unifyPairs cs = cs := List.cons_inj_right c
      _ ↔ ¬['\r', '\n'] <:+: cs := ih
      _ ↔ ¬['\r', '\n'] <:+: c :: cs := by rw [List.infix_cons_iff, not_or, and_iff_right hfirst]

theorem pair_infix_unifyPairs_iff {cs : List Char} :
    ['\r', '\n'] <:+: unifyPairs cs ↔ ['\r', '\r', '\n'] <:+: cs := by
  fun_induction unifyPairs cs with
  | case1 => simp
  | case2 cs ih => simp [List.infix_cons_iff, ih]
  | case3 c cs hpair ih =>
    have hfirst : ['\r', '\n'] <+: c :: unifyPairs cs ↔ ['\r', '\r', '\n'] <+: c :: cs := by
      rw [List.cons_prefix_cons, List.cons_prefix_cons]
      refine and_congr_right fun hc => ?_
      -- A line feed right behind the carriage return would have been a pair with it.
      have hnot : ∀ rest, cs ≠ '\n' :: rest := fun rest => hpair rest hc.symm
      fun_cases unifyPairs cs with
      | case1 => simp
      | case2 cs => simp
      | case3 d ds hds =>
        have hd : d ≠ '\n' := by
          rintro rfl
          exact hnot ds rfl
        have hpair' : ¬['\r', '\n'] <+: d :: ds := by
          rintro ⟨rest, h⟩
          obtain ⟨rfl, rfl⟩ := List.cons.inj h
          exact hds rest rfl rfl
        exact iff_of_false (fun h => hd (List.cons_prefix_cons.1 h).1.symm) hpair'
    rw [List.infix_cons_iff, List.infix_cons_iff, ih, hfirst]

/-- Unifying pairs again changes something just where two carriage returns stand before a line feed. -/
theorem unifyPairs_unifyPairs_iff {cs : List Char} :
    unifyPairs (unifyPairs cs) = unifyPairs cs ↔ ¬['\r', '\r', '\n'] <:+: cs := by
  rw [unifyPairs_eq_self_iff, pair_infix_unifyPairs_iff]

end GoScaffold.Text
