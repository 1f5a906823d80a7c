import GoScaffold.Proofs.Grammar.Cuts
import GoScaffold.Proofs.Grammar.Steady

set_option autoImplicit false

/-! # White space after a text

White space after a text changes nothing of what a scanner takes off it: where the text ends, a lexeme
would end too (`Scan.Firm`). Each way of building scanners keeps this, and every scanner of the grammar
has it, but the one for the end of the text, which sees the end only where no white space follows.

Comments are different. A comment up to the end of its line takes white space along, and two dashes
become the opening of one with a space after them. Skipping goes on as before in the one case, and the
other has to be excluded (`Scan.blanksFrom_ahead`). -/

namespace GoScaffold.Grammar

/-- The same cut of a text that goes on. -/
def ahead (post : List Char) (cut : Option (List Char × List Char)) : Option (List Char × List Char) :=
  cut.map fun (lexeme, rest) => (lexeme, rest ++ post)

@[simp] theorem ahead_none (post : List Char) : ahead post none = none := rfl

@[simp] theorem ahead_some (post lexeme rest : List Char) :
    ahead post (some (lexeme, rest)) = some (lexeme, rest ++ post) := rfl

@[simp] theorem behind_none (c : Char) : behind c none = none := rfl

theorem ahead_behind (post : List Char) (c : Char) (cut : Option (List Char × List Char)) :
    ahead post (behind c cut) = behind c (ahead post cut) := by
  cases cut <;> rfl

namespace Scan

variable {a b s : Scan} {p : Char → Bool} {post : List Char}

/-- What the scanner takes does not depend on white space after the text. -/
def Firm (s : Scan) : Prop :=
  ∀ cs post : List Char, (∀ c ∈ post, isSpace c = true) → s (cs ++ post) = ahead post (s cs)

/-- No white space has the property. -/
def Inky (p : Char → Bool) : Prop := ∀ c, isSpace c = true → p c = false

theorem isSpace_iff {c : Char} : isSpace c = true ↔ c = ' ' ∨ c = '\t' ∨ c = '\n' ∨ c = '\r' := by
  simp [isSpace, or_assoc]

theorem inky_iff : Inky p ↔ p ' ' = false ∧ p '\t' = false ∧ p '\n' = false ∧ p '\r' = false := by
  simp [Inky, isSpace_iff]

instance : Decidable (Inky p) := decidable_of_iff _ inky_iff.symm

/-! ## Ways of building scanners -/

theorem Firm.chain (ha : a.Firm) (hb : b.Firm) : (chain a b).Firm := by
  intro cs post hpost
  rw [Scan.chain, Scan.chain, ha cs post hpost]
  cases a cs with
  | none => rfl
  | some cut =>
    obtain ⟨w, r⟩ := cut
    simp only [ahead_some, hb r post hpost]
    cases b r <;> rfl

theorem Firm.either (ha : a.Firm) (hb : b.Firm) : (either a b).Firm := by
  intro cs post hpost
  rw [Scan.either, Scan.either, ha cs post hpost, hb cs post hpost]
  cases a cs <;> rfl

theorem Firm.maybe (ha : a.Firm) : (maybe a).Firm := by
  intro cs post hpost
  rw [Scan.maybe, Scan.maybe, ha cs post hpost]
  cases a cs <;> rfl

theorem Firm.all {scans : List Scan} (h : ∀ s ∈ scans, s.Firm) : (all scans).Firm := by
  induction scans with
  | nil => exact fun _ _ _ => rfl
  | cons s scans ih =>
    exact (h s (List.mem_cons_self ..)).chain (ih fun t ht => h t (List.mem_cons_of_mem _ ht))

theorem Firm.first {scans : List Scan} (h : ∀ s ∈ scans, s.Firm) : (first scans).Firm := by
  induction scans with
  | nil => exact fun _ _ _ => rfl
  | cons s scans ih =>
    exact (h s (List.mem_cons_self ..)).either (ih fun t ht => h t (List.mem_cons_of_mem _ ht))

theorem firm_one (hp : Inky p) : (one p).Firm := by
  intro cs post hpost
  cases cs with
  | nil =>
    cases post with
    | nil => rfl
    | cons c post => simp [one, hp c (hpost c (List.mem_cons_self ..))]
  | cons c cs =>
    simp only [List.cons_append, one]
    split <;> rfl

/-- A run that ends in a text ends there in a longer one. -/
theorem run_ahead {cs : List Char} (h : cs.dropWhile p ≠ []) (post : List Char) :
    run p (cs ++ post) = ahead post (run p cs) := by
  have hshort : (cs.takeWhile p).length ≠ cs.length := by
    have hlength := congrArg List.length (List.takeWhile_append_dropWhile (p := p) (l := cs))
    have hpos := List.length_pos_iff.2 h
    rw [List.length_append] at hlength
    omega
  simp [run, List.takeWhile_append, List.dropWhile_append, h, hshort]

/-- A run over a whole text goes on in a longer one. -/
theorem run_append_of_dropWhile {cs : List Char} (h : cs.dropWhile p = []) (post : List Char) :
    run p (cs ++ post) = some (cs ++ post.takeWhile p, post.dropWhile p) := by
  have htake : cs.takeWhile p = cs := List.takeWhile_eq_self_iff.2 (List.dropWhile_eq_nil_iff.1 h)
  simp [run, List.takeWhile_append, List.dropWhile_append, h, htake]

theorem firm_run (hp : Inky p) : (run p).Firm := by
  intro cs post hpost
  by_cases h : cs.dropWhile p = []
  · have htake : cs.takeWhile p = cs := List.takeWhile_eq_self_iff.2 (List.dropWhile_eq_nil_iff.1 h)
    have hnone : post.takeWhile p = [] ∧ post.dropWhile p = post := by
      cases post with
      | nil => exact ⟨rfl, rfl⟩
      | cons c post => simp [hp c (hpost c (List.mem_cons_self ..))]
    rw [run_append_of_dropWhile h, run, h, htake, hnone.1, hnone.2]
    simp
  · exact run_ahead h post

theorem firm_run1 (hp : Inky p) : (run1 p).Firm := (firm_one hp).chain (firm_run hp)

theorem firm_notBefore (hp : Inky p) : (notBefore p).Firm := by
  intro cs post hpost
  cases cs with
  | nil =>
    cases post with
    | nil => rfl
    | cons c post => simp [notBefore, hp c (hpost c (List.mem_cons_self ..))]
  | cons c cs =>
    simp only [List.cons_append, notBefore]
    split <;> rfl

/-- A word is the same in a longer text if it does not end in what was added. -/
theorem word_ahead {w cs : List Char} (h : ∀ m, w = cs ++ m → m <+: post → m = []) :
    word w (cs ++ post) = ahead post (word w cs) := by
  cases hword : word w cs with
  | some cut =>
    obtain ⟨rfl, rfl⟩ := word_eq_some.1 (show word w cs = some (cut.1, cut.2) from hword)
    exact word_eq_some.2 ⟨rfl, List.append_assoc ..⟩
  | none =>
    refine Option.eq_none_iff_forall_ne_some.2 fun cut hcut => ?_
    have hshort (r : List Char) : cs ≠ w ++ r := fun hcs =>
      absurd (word_eq_some.2 ⟨rfl, hcs⟩) (by simp [hword])
    obtain ⟨-, htext⟩ := word_eq_some.1 (show word w (cs ++ post) = some (cut.1, cut.2) from hcut)
    rcases List.append_eq_append_iff.1 htext with ⟨m, hm, hpost⟩ | ⟨m, hm, -⟩
    · obtain rfl := h m hm ⟨_, hpost.symm⟩
      exact hshort [] (by rw [hm, List.append_nil, List.append_nil])
    · exact hshort m hm

theorem firm_word {w : List Char} (hw : ∀ c ∈ w, isSpace c = false) : (word w).Firm := by
  intro cs post hpost
  refine word_ahead fun m hm hbegins => List.eq_nil_iff_forall_not_mem.2 fun c hc => ?_
  have hspace := hpost c (hbegins.subset hc)
  rw [hw c (by rw [hm]; exact List.mem_append_right _ hc)] at hspace
  exact absurd hspace Bool.false_ne_true

/-- A run that would take white space along is followed by something that it does not take. -/
theorem Firm.run_chain (hp : Inky fun c => !p c) (hb : b.Firm) (hnil : b [] = none) :
    (Scan.chain (run p) b).Firm := by
  intro cs post hpost
  rw [Scan.chain, Scan.chain]
  by_cases h : cs.dropWhile p = []
  · have hall : ∀ c ∈ post, p c = true := fun c hc => by simpa using hp c (hpost c hc)
    rw [run_append_of_dropWhile h, List.dropWhile_eq_nil_iff.2 hall, run, h]
    simp [hnil]
  · rw [run_ahead h]
    simp only [run, ahead_some, hb _ post hpost]
    cases b (cs.dropWhile p) <;> rfl

/-! ## The scanners of the grammar -/

theorem firm_keyword {words : List String} (h : ∀ u ∈ words, ∀ c ∈ u.toList, isSpace c = false) :
    (keyword words).Firm := by
  refine Firm.chain (Firm.first ?_) (firm_notBefore (by decide))
  intro s hs
  obtain ⟨u, hu, rfl⟩ := List.mem_map.1 hs
  exact firm_word (h u hu)

theorem backtickEnd_spaces (hpost : ∀ c ∈ post, isSpace c = true) : backtickEnd post = none := by
  fun_induction backtickEnd post with
  | case1 => rfl
  | case2 => exact absurd (hpost _ (List.mem_cons_self ..)) (by decide)
  | case3 => rfl
  | case4 => exact absurd (hpost _ (List.mem_cons_self ..)) (by decide)
  | case5 => exact absurd (hpost _ (List.mem_cons_self ..)) (by decide)
  | case6 c d cs _ ih => rw [ih fun e he => hpost e (List.mem_cons_of_mem _ he), behind_none]

theorem firm_backtickEnd : backtickEnd.Firm := by
  intro cs post hpost
  fun_induction backtickEnd cs with
  | case1 => exact backtickEnd_spaces hpost
  | case2 =>
    cases post with
    | nil => rfl
    | cons d post =>
      have hd : d ≠ '`' := by
        rintro rfl
        exact absurd (hpost _ (List.mem_cons_self ..)) (by decide)
      simp [backtickEnd, hd]
  | case3 c hc =>
    cases post with
    | nil => simp [backtickEnd, hc]
    | cons d post => simp [backtickEnd, hc, backtickEnd_spaces hpost]
  | case4 cs ih => simp [backtickEnd, ih, ahead_behind]
  | case5 d cs hd => simp [backtickEnd, hd]
  | case6 c d cs hc ih =>
    rw [List.cons_append] at ih
    simp [backtickEnd, hc, ih, ahead_behind]

theorem firm_quotedIdent : quotedIdent.Firm := (firm_word (by decide)).chain firm_backtickEnd

theorem firm_bareIdent : bareIdent.Firm := firm_run1 (by decide)

theorem firm_identifier : identifier.Firm := firm_quotedIdent.either firm_bareIdent

theorem firm_typeName : typeName.Firm := (firm_one (by decide)).chain (firm_run (by decide))

theorem stringEnd_spaces {q : Char} (hq : isSpace q = false) (hpost : ∀ c ∈ post, isSpace c = true) :
    stringEnd q post = none := by
  fun_induction stringEnd q post with
  | case1 => rfl
  | case2 => exact absurd (hpost _ (List.mem_cons_self ..)) (by simp [hq])
  | case3 => rfl
  | case4 => exact absurd (hpost _ (List.mem_cons_self ..)) (by decide)
  | case5 => exact absurd (hpost _ (List.mem_cons_self ..)) (by simp [hq])
  | case6 => exact absurd (hpost _ (List.mem_cons_self ..)) (by simp [hq])
  | case7 c d cs _ _ ih => rw [ih fun e he => hpost e (List.mem_cons_of_mem _ he), behind_none]

theorem firm_stringEnd {q : Char} (hback : q ≠ '\\') (hq : isSpace q = false) : (stringEnd q).Firm := by
  intro cs post hpost
  fun_induction stringEnd q cs with
  | case1 => exact stringEnd_spaces hq hpost
  | case2 =>
    cases post with
    | nil => simp [stringEnd]
    | cons d post =>
      have hd : d ≠ q := by
        rintro rfl
        exact absurd (hpost _ (List.mem_cons_self ..)) (by simp [hq])
      simp [stringEnd, hback, hd]
  | case3 c hc =>
    cases post with
    | nil => simp [stringEnd, hc]
    | cons d post =>
      have htail := stringEnd_spaces hq fun e he => hpost e (List.mem_cons_of_mem _ he)
      simp [stringEnd, hc, stringEnd_spaces hq hpost, htail]
  | case4 d cs ih => simp [stringEnd, ih, ahead_behind]
  | case5 cs hne ih => simp [stringEnd, hne, ih, ahead_behind]
  | case6 d cs hne hd => simp [stringEnd, hne, hd]
  | case7 c d cs hne hc ih =>
    rw [List.cons_append] at ih
    simp [stringEnd, hne, hc, ih, ahead_behind]

theorem firm_stringLiteral : stringLiteral.Firm :=
  ((firm_word (by decide)).chain (firm_stringEnd (by decide) (by decide))).either
    ((firm_word (by decide)).chain (firm_stringEnd (by decide) (by decide)))

theorem firm_bitLiteral : bitLiteral.Firm :=
  (firm_one (by decide)).chain ((firm_word (by decide)).chain
    (Firm.run_chain (by decide) ((firm_word (by decide)).chain (Firm.all (by simp))) rfl))

theorem firm_number : number.Firm := by
  have hdecimal : (either (chain (run1 Char.isDigit) (maybe (chain (word ['.']) (run Char.isDigit))))
      (chain (word ['.']) (run1 Char.isDigit))).Firm :=
    ((firm_run1 (by decide)).chain ((firm_word (by decide)).chain (firm_run (by decide))).maybe).either
      ((firm_word (by decide)).chain (firm_run1 (by decide)))
  have hexponent : (all [word ['E'], maybe sign, run1 Char.isDigit]).Firm := by
    refine Firm.all ?_
    simp only [List.forall_mem_cons]
    exact ⟨firm_word (by decide), (firm_one (by decide)).maybe, firm_run1 (by decide),
      List.forall_mem_nil _⟩
  exact ((firm_word (by decide)).chain (firm_run1 (by decide))).either (hdecimal.chain hexponent.maybe)

theorem firm_signedNumber : signedNumber.Firm := (firm_one (by decide)).maybe.chain firm_number

theorem parenEnd_spaces (pending depth : Nat) (hpost : ∀ c ∈ post, isSpace c = true) :
    parenEnd pending depth post = none := by
  have htail {c : Char} {cs : List Char} (h : ∀ d ∈ c :: cs, isSpace d = true) :
      ∀ d ∈ cs, isSpace d = true := fun d hd => h d (List.mem_cons_of_mem _ hd)
  fun_induction parenEnd pending depth post with
  | case1 => rfl
  | case2 pending depth c cs ih => rw [ih (htail hpost), behind_none]
  | case3 depth cs ih => rw [ih (htail hpost), behind_none]
  | case4 => exact absurd (hpost _ (List.mem_cons_self ..)) (by decide)
  | case5 cs depth hopen ih => rw [ih (htail hpost), behind_none]
  | case6 depth c cs hopen hclose lexeme rest hstring ih => rw [ih (htail hpost), behind_none]
  | case7 depth c cs hopen hclose hstring ih => rw [ih (htail hpost), behind_none]

theorem firm_parenEnd (pending depth : Nat) : (parenEnd pending depth).Firm := by
  intro cs post hpost
  fun_induction parenEnd pending depth cs with
  | case1 pending depth => exact parenEnd_spaces pending depth hpost
  | case2 pending depth c cs ih => rw [List.cons_append, parenEnd, ih, ahead_behind]
  | case3 depth cs ih => simp [parenEnd, ih, ahead_behind]
  | case4 cs => simp [parenEnd]
  | case5 cs depth hopen ih => simp [parenEnd, ih, ahead_behind]
  | case6 depth c cs hopen hclose lexeme rest hstring ih =>
    have hstring := firm_stringLiteral (c :: cs) post hpost |>.trans (congrArg (ahead post) hstring)
    rw [List.cons_append] at hstring
    simp [parenEnd, hopen, hclose, hstring, ih, ahead_behind]
  | case7 depth c cs hopen hclose hstring ih =>
    have hstring := firm_stringLiteral (c :: cs) post hpost |>.trans (congrArg (ahead post) hstring)
    rw [List.cons_append] at hstring
    simp [parenEnd, hopen, hclose, hstring, ih, ahead_behind]

theorem firm_parenExpr : parenExpr.Firm := (firm_word (by decide)).chain (firm_parenEnd 0 0)

theorem firm_currentTimestamp : currentTimestamp.Firm := by
  have hclose : (all [word [')']]).Firm := (firm_word (by decide)).chain (Firm.all (by simp))
  have hdigits : (all [run Char.isDigit, run isSpace, word [')']]).Firm :=
    (firm_run (by decide)).chain (.run_chain (by decide) hclose rfl)
  have hprecision : (all [word ['('], run isSpace, run Char.isDigit, run isSpace, word [')']]).Firm :=
    (firm_word (by decide)).chain (.run_chain (by decide) hdigits rfl)
  exact (firm_keyword (by decide)).chain (Firm.run_chain (by decide) hprecision rfl).maybe

/-! ## Comments -/

theorem blockEnd_spaces (hpost : ∀ c ∈ post, isSpace c = true) : blockEnd post = none := by
  fun_induction blockEnd post with
  | case1 => rfl
  | case2 => exact absurd (hpost _ (List.mem_cons_self ..)) (by decide)
  | case3 c cs _ ih => rw [ih fun d hd => hpost d (List.mem_cons_of_mem _ hd), behind_none]

theorem firm_blockEnd : blockEnd.Firm := by
  intro cs post hpost
  fun_induction blockEnd cs with
  | case1 => exact blockEnd_spaces hpost
  | case2 cs => rfl
  | case3 c cs hne ih =>
    rw [List.cons_append, blockEnd, ih, ahead_behind]
    -- The slash that would end the comment is not white space.
    rintro ds rfl hds
    cases cs with
    | nil =>
      have hslash : isSpace '/' = true := hpost _ (by rw [show post = '/' :: ds from hds]; simp)
      exact absurd hslash (by decide)
    | cons d cs => exact hne cs rfl (by rw [(List.cons.inj hds).1])

/-- No comment opens where a text and white space meet, but after two dashes. -/
theorem dashes_ahead {cs : List Char} (hpost : ∀ c ∈ post, isSpace c = true)
    (hdashes : cs = ['-', '-'] → post.head? ≠ some ' ') :
    word ['-', '-', ' '] (cs ++ post) = ahead post (word ['-', '-', ' '] cs) := by
  refine word_ahead fun m hm hbegins => ?_
  have hdash : '-' ∉ m := fun hmem => absurd (hpost '-' (hbegins.subset hmem)) (by decide)
  rcases cs with _ | ⟨c, _ | ⟨d, _ | ⟨e, cs⟩⟩⟩
  · obtain rfl : m = ['-', '-', ' '] := hm.symm
    exact absurd (by simp) hdash
  · obtain rfl : m = ['-', ' '] := (List.cons.inj hm).2.symm
    exact absurd (by simp) hdash
  · obtain ⟨rfl, rfl, rfl⟩ : '-' = c ∧ '-' = d ∧ [' '] = m := by simpa using hm
    obtain ⟨r, rfl⟩ := hbegins
    exact absurd rfl (hdashes rfl)
  · obtain ⟨-, -, -, -, rfl⟩ : '-' = c ∧ '-' = d ∧ ' ' = e ∧ cs = [] ∧ m = [] := by
      simpa [eq_comm] using hm
    rfl

/-- White space after a text leaves a comment as it is, or the comment takes the whole text and runs
on. -/
theorem comment_append {cs : List Char} (hpost : ∀ c ∈ post, isSpace c = true)
    (hdashes : cs = ['-', '-'] → post.head? ≠ some ' ') :
    comment (cs ++ post) = ahead post (comment cs)
      ∨ ∃ more rest, comment cs = some (cs, []) ∧ comment (cs ++ post) = some (cs ++ more, rest) := by
  let opening : Scan := either (word ['#']) (word ['-', '-', ' '])
  let block : Scan := chain (word ['/', '*']) blockEnd
  have hcomment (cs : List Char) :
      comment cs = (block cs).or (chain opening (run (· != '\n')) cs) := by
    show (block cs).or ((chain opening (run (· != '\n')) cs).or none) = _
    rw [Option.or_none]
  have hblock : block.Firm := (firm_word (by decide)).chain firm_blockEnd
  have hopening : opening (cs ++ post) = ahead post (opening cs) := by
    show (word ['#'] (cs ++ post)).or (word ['-', '-', ' '] (cs ++ post)) = _
    rw [firm_word (by decide) cs post hpost, dashes_ahead hpost hdashes]
    show _ = ahead post ((word ['#'] cs).or (word ['-', '-', ' '] cs))
    cases word ['#'] cs <;> rfl
  rw [hcomment, hcomment, hblock cs post hpost]
  cases hfound : block cs with
  | some cut => exact Or.inl rfl
  | none =>
    rw [ahead_none, Option.none_or, Option.none_or, Scan.chain, Scan.chain, hopening]
    cases hopen : opening cs with
    | none => exact Or.inl rfl
    | some cut =>
      obtain ⟨u, m⟩ := cut
      have hcut : cs = u ++ m := ((cuts_word _).either (cuts_word _)) cs u m hopen
      simp only [ahead_some]
      by_cases hline : m.dropWhile (· != '\n') = []
      -- The line has no end yet.
      · have htake : m.takeWhile (· != '\n') = m :=
          List.takeWhile_eq_self_iff.2 (List.dropWhile_eq_nil_iff.1 hline)
        rw [run_append_of_dropWhile hline, run, hline, htake, hcut]
        exact Or.inr ⟨post.takeWhile (· != '\n'), post.dropWhile (· != '\n'), rfl, by simp⟩
      · rw [run_ahead hline]
        exact Or.inl (by simp [run])

/-! ## Skipping -/

theorem blanksFrom_spaces (pending : Nat) (hpost : ∀ c ∈ post, isSpace c = true) :
    blanksFrom pending post = (post, []) := by
  induction post generalizing pending with
  | nil => cases pending <;> rfl
  | cons c post ih =>
    have ih (pending : Nat) := ih pending fun d hd => hpost d (List.mem_cons_of_mem _ hd)
    cases pending with
    | zero => simp [blanksFrom, hpost c (List.mem_cons_self ..), ih]
    | succ pending => simp [blanksFrom, ih]

theorem blanksFrom_of_length_le {pending : Nat} {cs : List Char} (h : cs.length ≤ pending)
    (hpost : ∀ c ∈ post, isSpace c = true) : blanksFrom pending (cs ++ post) = (cs ++ post, []) := by
  induction cs generalizing pending with
  | nil => exact blanksFrom_spaces pending hpost
  | cons c cs ih =>
    obtain ⟨pending, rfl⟩ : ∃ n, pending = n + 1 := ⟨pending - 1, by rw [List.length_cons] at h; omega⟩
    simp [blanksFrom, ih (Nat.le_of_succ_le_succ h)]

/-- White space after a text is skipped if all of the text is, and else left with the rest. -/
theorem blanksFrom_ahead (pending : Nat) {cs : List Char} (hpost : ∀ c ∈ post, isSpace c = true)
    (hdashes : ['-', '-'] <:+ cs → post.head? ≠ some ' ') :
    blanksFrom pending (cs ++ post)
      = if (blanksFrom pending cs).2 = [] then (cs ++ post, [])
        else ((blanksFrom pending cs).1, (blanksFrom pending cs).2 ++ post) := by
  fun_induction blanksFrom pending cs with
  | case1 pending => exact blanksFrom_spaces pending hpost
  | case2 pending c cs taken rest hrest ih =>
    have ih := ih fun h => hdashes (h.trans (List.suffix_cons ..))
    rw [hrest] at ih
    rw [List.cons_append, blanksFrom, ih]
    by_cases hnil : rest = [] <;> simp [hnil]
  | case3 c cs hspace taken rest hrest ih =>
    have ih := ih fun h => hdashes (h.trans (List.suffix_cons ..))
    rw [hrest] at ih
    rw [List.cons_append, blanksFrom, if_pos hspace, ih]
    by_cases hnil : rest = [] <;> simp [hnil]
  | case4 c cs hspace lexeme rest hcomment taken rest' hrest ih =>
    have ih := ih fun h => hdashes (h.trans (List.suffix_cons ..))
    rcases comment_append hpost fun h => hdashes (h ▸ List.suffix_refl _) with h | ⟨more, r, here, there⟩
    · rw [hcomment, ahead_some, List.cons_append] at h
      rw [hrest] at ih
      rw [List.cons_append, blanksFrom, if_neg hspace, h]
      simp only [ih]
      by_cases hnil : rest' = [] <;> simp [hnil]
    -- All of the text is a comment, and so is some of what follows.
    · obtain ⟨rfl, -⟩ := Prod.mk.inj (Option.some.inj (hcomment.symm.trans here))
      have hall : blanksFrom cs.length (cs ++ []) = (cs ++ [], []) :=
        blanksFrom_of_length_le (Nat.le_refl _) (List.forall_mem_nil _)
      have hmore : blanksFrom ((c :: (cs ++ more)).length - 1) (cs ++ post) = (cs ++ post, []) :=
        blanksFrom_of_length_le (by simp) hpost
      have hrest : blanksFrom cs.length cs = (taken, rest') := hrest
      rw [List.append_nil, hrest] at hall
      obtain ⟨rfl, rfl⟩ := Prod.mk.inj hall
      rw [List.cons_append] at there
      rw [List.cons_append, blanksFrom, if_neg hspace, there]
      simp only [List.cons_append, hmore, if_true]
  | case5 c cs hspace hcomment =>
    rcases comment_append hpost fun h => hdashes (h ▸ List.suffix_refl _) with h | ⟨more, r, here, -⟩
    · rw [hcomment, ahead_none, List.cons_append] at h
      rw [List.cons_append, blanksFrom, if_neg hspace, h]
      simp
    · rw [hcomment] at here
      cases here

end Scan

end GoScaffold.Grammar
