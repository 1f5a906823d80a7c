import GoScaffold.Proofs.Grammar.Steady

set_option autoImplicit false

/-! # Marks, quoted texts and parentheses on texts that differ in their spacing

Where no spacing stands first, the scanners that are not steady everywhere also take the same off two
texts that differ in their spacing alone. The one exception is the current time, whose precision in
parentheses must not have a comment before it: with the comment removed, more is taken
(`currentTimestamp_agrees`). -/

namespace GoScaffold.Grammar

open Text

namespace Scan

variable {a b s : Scan} {z z' : Zone} {cs cs' : List Char}

/-! ## Marks -/

theorem word_mark_eq_none {c : Char} (hc : c.isAlpha = false) (h : cs.head? ≠ some c) :
    word [c] (raise cs) = none := by
  refine word_eq_none [] fun d hd => ?_
  cases cs with
  | nil => simp at hd
  | cons e cs =>
    obtain rfl : e.toUpper = d := by simpa using hd
    intro hup
    rw [toUpper_eq_iff hc] at hup
    exact h (by rw [hup]; rfl)

theorem word_mark_cons {c : Char} (hc : c.isAlpha = false) (cs : List Char) :
    word [c] (raise (c :: cs)) = some (raise [c], raise cs) := by
  have hup : c.toUpper = c := (toUpper_eq_iff hc).2 rfl
  rw [raise_cons, raise_cons, raise_nil, hup]
  exact word_append [c] (raise cs)

/-- A mark, where no spacing stands first. -/
theorem mark_agrees {c : Char} (hc : c.isAlpha = false) (hquote : isQuote c = false)
    (h : Respaced z cs cs') (hcs : Settled cs) : (word [c]).Agrees (z.next c) cs cs' := by
  by_cases hhead : cs.head? = some c
  · obtain ⟨ds, ds', rfl, rfl, rest⟩ := h.cons_of_head? hcs hhead hquote
    exact .takes [c] ds ds' rfl rfl (word_mark_cons hc ds) (word_mark_cons hc ds') rest
  · exact .fails (word_mark_eq_none hc hhead) (word_mark_eq_none hc (h.head?_eq hcs ▸ hhead))

theorem atEnd_agrees (h : Respaced z cs cs') (hhead : cs.head? = cs'.head?) :
    atEnd.Agrees z cs cs' := by
  cases cs with
  | nil =>
    obtain rfl : cs' = [] := by simpa using hhead.symm
    exact .empty rfl rfl h
  | cons c cs =>
    cases cs' with
    | nil => simp at hhead
    | cons c' cs' => exact .fails rfl rfl

/-! ## Quoted texts -/

theorem quotedIdent_eq_none (h : cs.head? ≠ some '`') : quotedIdent (raise cs) = none :=
  chain_eq_none (word_mark_eq_none rfl h)

theorem stringLiteral_eq_none (hsingle : cs.head? ≠ some '\'') (hdouble : cs.head? ≠ some '"') :
    stringLiteral (raise cs) = none := by
  have hs := chain_eq_none (b := stringEnd '\'') (word_mark_eq_none rfl hsingle)
  have hd := chain_eq_none (b := stringEnd '"') (word_mark_eq_none rfl hdouble)
  rw [stringLiteral, either, hs, hd]
  rfl

theorem head?_ne_of_plain {c : Char} (cs : List Char) (h : isQuote c = false) {q : Char}
    (hq : isQuote q = true) : (c :: cs).head? ≠ some q := by
  rintro ⟨⟩
  rw [hq] at h
  exact absurd h (by decide)

theorem quotedIdent_agrees (h : Respaced z cs cs') (hcs : Settled cs) :
    quotedIdent.Agrees z cs cs' := by
  have hhead := h.head?_eq hcs
  cases h with
  | stop => exact .fails rfl rfl
  | char plain here there bits rest =>
    exact .fails (quotedIdent_eq_none (head?_ne_of_plain _ plain rfl))
      (quotedIdent_eq_none (head?_ne_of_plain _ plain rfl))
  | @name _ lexeme ds ds' here there quiet rest => exact .takes lexeme ds ds' rfl rfl here there rest
  | string here there rest =>
    obtain ⟨q, more, rfl, hq⟩ := stringLiteral_lexeme here
    have hne (ds : List Char) : (q :: more ++ ds).head? ≠ some '`' := by
      rintro ⟨⟩
      exact absurd hq (by decide)
    exact .fails (quotedIdent_eq_none (hne _)) (quotedIdent_eq_none (hne _))
  | gap held here there parted spaces inner rest => exact absurd (here.eq_nil hcs) held

theorem stringLiteral_agrees (h : Respaced z cs cs') (hcs : Settled cs) :
    stringLiteral.Agrees z cs cs' := by
  cases h with
  | stop => exact .fails rfl rfl
  | char plain here there bits rest =>
    exact .fails
      (stringLiteral_eq_none (head?_ne_of_plain _ plain rfl) (head?_ne_of_plain _ plain rfl))
      (stringLiteral_eq_none (head?_ne_of_plain _ plain rfl) (head?_ne_of_plain _ plain rfl))
  | name here there quiet rest =>
    obtain ⟨more, rfl⟩ := quotedIdent_lexeme here
    exact .fails (stringLiteral_eq_none (by simp) (by simp)) (stringLiteral_eq_none (by simp) (by simp))
  | @string _ lexeme ds ds' here there rest => exact .takes lexeme ds ds' rfl rfl here there rest
  | gap held here there parted spaces inner rest => exact absurd (here.eq_nil hcs) held

theorem identifier_agrees (h : Respaced z cs cs') (hcs : Settled cs) : identifier.Agrees z cs cs' :=
  (quotedIdent_agrees h hcs).either (steady_bareIdent h)

/-! ## Bit strings -/

/-- The text after a bit string does not count. -/
theorem bitEnd_append {w r : List Char} (h : bitEnd (w ++ r) = some (w, r)) (r' : List Char) :
    bitEnd (w ++ r') = some (w, r') := by
  obtain ⟨u, m, v, hu, hv, rfl⟩ := chain_eq_some.1 h
  obtain ⟨rfl, -⟩ := word_eq_some.1 hu
  obtain ⟨x, y, v', hx, hv', rfl⟩ := chain_eq_some.1 hv
  obtain ⟨u', m', v'', hu', hnil, rfl⟩ := chain_eq_some.1 hv'
  obtain ⟨rfl, -⟩ := word_eq_some.1 hu'
  obtain ⟨rfl, -⟩ : v'' = [] ∧ m' = r := by simpa [all, eq_comm] using hnil
  have hinner : ∀ c ∈ x, (c != '\'') = true := by
    simp only [run, Option.some.injEq, Prod.mk.injEq] at hx
    rw [← hx.1]
    exact List.all_eq_true.1 List.all_takeWhile
  have hrun : run (· != '\'') (x ++ '\'' :: r') = some (x, '\'' :: r') := by
    rw [run, List.takeWhile_append_of_pos hinner, List.dropWhile_append_of_pos hinner]
    simp
  have hopen : word ['\''] ('\'' :: (x ++ '\'' :: r')) = some (['\''], x ++ '\'' :: r') :=
    word_append ['\''] _
  have hclose : word ['\''] ('\'' :: r') = some (['\''], r') := word_append ['\''] r'
  have htext : ['\''] ++ (x ++ (['\''] ++ [])) ++ r' = '\'' :: (x ++ '\'' :: r') := by simp
  rw [htext]
  simp [bitEnd, all, Scan.chain, hopen, hrun, hclose]

theorem bitEnd_agrees (h : Respaced z cs cs')
    (hbits : cs.head? = some '\'' → bitEnd (raise cs) = stringLiteral (raise cs)) :
    bitEnd.Agrees z cs cs' := by
  have hfail {cs : List Char} (hcs : cs.head? ≠ some '\'') : bitEnd (raise cs) = none :=
    chain_eq_none (word_mark_eq_none rfl hcs)
  cases h with
  | stop => exact .fails rfl rfl
  | char plain here there bits rest =>
    exact .fails (hfail (head?_ne_of_plain _ plain rfl)) (hfail (head?_ne_of_plain _ plain rfl))
  | name here there quiet rest =>
    obtain ⟨more, rfl⟩ := quotedIdent_lexeme here
    exact .fails (hfail (by simp)) (hfail (by simp))
  | @string _ lexeme ds ds' here there rest =>
    obtain ⟨q, more, rfl, hq⟩ := stringLiteral_lexeme here
    -- A string that is also a bit string ends at the same quote, whatever follows.
    rcases hq with rfl | rfl
    · have hhere := (hbits rfl).trans here
      refine .takes _ ds ds' rfl rfl hhere ?_ rest
      rw [raise_append] at hhere ⊢
      exact bitEnd_append hhere _
    · exact .fails (hfail (by simp)) (hfail (by simp))
  | @gap _ gap gap' ds ds' held here there parted spaces inner rest =>
    refine .fails (hfail (here.head?_ne held rfl (by decide))) (hfail ?_)
    by_cases hgap : gap' = []
    · rw [hgap, List.nil_append, ← rest.head?_eq here.settled]
      exact fun hq => absurd (parted hgap _ hq) (by decide)
    · exact there.head?_ne hgap rfl (by decide)

theorem bitLiteral_agrees (h : Respaced z cs cs') (hcs : Settled cs) :
    bitLiteral.Agrees z cs cs' := by
  have hinked : Inked fun c => c == 'B' || c == 'X' := by
    intro c hc
    have hc' : c = 'B' ∨ c = 'X' := by simpa using hc
    rcases hc' with rfl | rfl <;> decide
  have hfail {cs : List Char} (hcs : Uninked cs) : bitLiteral (raise cs) = none :=
    chain_eq_none (one_eq_none hinked hcs)
  have hhead := h.head?_eq hcs
  cases h with
  | stop => exact .fails rfl rfl
  | @char _ c ds ds' plain here there bits rest =>
    cases hc : c.toUpper == 'B' || c.toUpper == 'X' with
    | true =>
      have hc' : c.toUpper = 'B' ∨ c.toUpper = 'X' := by simpa using hc
      have hne : c ≠ '(' ∧ c ≠ ')' := by
        constructor <;> rintro rfl <;> exact absurd hc' (by decide)
      rw [Zone.next_of_ne hne.1 hne.2] at rest
      refine Agrees.chain_of_takes (w := [c]) rfl rfl ?_ ?_ (bitEnd_agrees rest (bits hc'))
      · simp [one, hc]
      · simp [one, hc]
    | false =>
      have hone (ds : List Char) : one (fun c => c == 'B' || c == 'X') (raise (c :: ds)) = none := by
        simp [one, hc]
      exact .fails (chain_eq_none (hone ds)) (chain_eq_none (hone ds'))
  | name here there quiet rest =>
    exact .fails (hfail (broken_of_quotedIdent here).uninked)
      (hfail (broken_of_quotedIdent there).uninked)
  | string here there rest =>
    exact .fails (hfail (broken_of_stringLiteral here).uninked)
      (hfail (broken_of_stringLiteral there).uninked)
  | gap held here there parted spaces inner rest => exact absurd (here.eq_nil hcs) held

/-! ## Parentheses -/

/-- The cut with more characters at the front of the lexeme. -/
def prepend (x : List Char) (cut : Option (List Char × List Char)) :
    Option (List Char × List Char) :=
  cut.map fun (lexeme, rest) => (x ++ lexeme, rest)

@[simp] theorem prepend_nil (cut : Option (List Char × List Char)) : prepend [] cut = cut := by
  cases cut <;> rfl

theorem behind_prepend (c : Char) (x : List Char) (cut : Option (List Char × List Char)) :
    behind c (prepend x cut) = prepend (c :: x) cut := by
  cases cut <;> rfl

/-- What a scanner takes after the same characters of both texts. -/
theorem Agrees.prepend {x : List Char} (h : b.Agrees z cs cs')
    (here : s (raise (x ++ cs)) = Scan.prepend (raise x) (b (raise cs)))
    (there : s (raise (x ++ cs')) = Scan.prepend (raise x) (b (raise cs'))) :
    s.Agrees z (x ++ cs) (x ++ cs') := by
  cases h with
  | fails here' there' =>
    exact .fails (by rw [here, here']; rfl) (by rw [there, there']; rfl)
  | takes w r r' split split' here' there' rest =>
    refine .takes (x ++ w) r r' ?_ ?_ ?_ ?_ rest
    · rw [split, List.append_assoc]
    · rw [split', List.append_assoc]
    · rw [here, here', raise_append]
      rfl
    · rw [there, there', raise_append]
      rfl

theorem parenEnd_pending (depth : Nat) (x cs : List Char) :
    parenEnd x.length depth (x ++ cs) = prepend x (parenEnd 0 depth cs) := by
  induction x with
  | nil => simp
  | cons c x ih => rw [List.length_cons, List.cons_append, parenEnd, ih, behind_prepend]

theorem parenEnd_cons (depth : Nat) {c : Char} (cs : List Char) (hopen : c ≠ '(') (hclose : c ≠ ')') :
    parenEnd 0 depth (c :: cs)
      = match stringLiteral (c :: cs) with
        | some (lexeme, _) => behind c (parenEnd (lexeme.length - 1) depth cs)
        | none => behind c (parenEnd 0 depth cs) := by
  have hstep := parenEnd.eq_def 0 depth (c :: cs)
  simp only [if_neg hopen, if_neg hclose] at hstep
  exact hstep

/-- Neither a parenthesis nor a quote. -/
def IsQuiet (c : Char) : Prop := c ∉ ['(', ')', '\'', '"']

theorem parenEnd_quiet (depth : Nat) {x : List Char} (hx : ∀ c ∈ x, IsQuiet c) (cs : List Char) :
    parenEnd 0 depth (raise (x ++ cs)) = prepend (raise x) (parenEnd 0 depth (raise cs)) := by
  induction x with
  | nil => simp
  | cons c x ih =>
    have hc := hx c (List.mem_cons_self ..)
    simp only [IsQuiet, List.mem_cons, List.not_mem_nil, or_false, not_or] at hc
    have hopen : c.toUpper ≠ '(' := fun h => hc.1 ((toUpper_eq_iff rfl).1 h)
    have hclose : c.toUpper ≠ ')' := fun h => hc.2.1 ((toUpper_eq_iff rfl).1 h)
    have hstring : stringLiteral (raise (c :: (x ++ cs))) = none :=
      stringLiteral_eq_none (by simpa using hc.2.2.1) (by simpa using hc.2.2.2)
    rw [raise_cons] at hstring
    rw [List.cons_append, raise_cons, parenEnd_cons depth _ hopen hclose, hstring]
    simp only
    rw [ih fun d hd => hx d (List.mem_cons_of_mem _ hd), behind_prepend]
    rfl

theorem parenEnd_string (depth : Nat) {lexeme cs : List Char}
    (h : stringLiteral (raise (lexeme ++ cs)) = some (raise lexeme, raise cs)) :
    parenEnd 0 depth (raise (lexeme ++ cs)) = prepend (raise lexeme) (parenEnd 0 depth (raise cs)) := by
  obtain ⟨q, more, rfl, hq⟩ := stringLiteral_lexeme h
  have hup : q.toUpper = q ∧ q ≠ '(' ∧ q ≠ ')' := by
    rcases hq with rfl | rfl <;> decide
  have hcons : raise (q :: more ++ cs) = q :: (raise more ++ raise cs) := by
    rw [List.cons_append, raise_cons, raise_append, hup.1]
  rw [hcons] at h ⊢
  rw [parenEnd_cons depth _ hup.2.1 hup.2.2, h]
  simp only
  rw [raise_cons, hup.1, List.length_cons, Nat.add_sub_cancel, parenEnd_pending, behind_prepend]

/-- Inside further parentheses, up to the one that closes the outermost of them that this scan has
opened. -/
theorem parenEnd_agrees (base : Nat) {depth : Nat} (h : Respaced z cs cs')
    (hz : z = .inner (base + depth)) :
    (parenEnd 0 depth).Agrees (Zone.inner base).closed cs cs' := by
  -- Along the two texts: the depth that the scan counts is the depth of the zone, less `base`.
  induction h generalizing depth with
  | stop => exact .fails rfl rfl
  | @char z c ds ds' plain here there bits rest ih =>
    subst hz
    by_cases hopen : c = '('
    · subst hopen
      have hnext : (Zone.inner (base + depth)).next '(' = .inner (base + (depth + 1)) := rfl
      exact (ih hnext).prepend (x := ['(']) rfl rfl
    · by_cases hclose : c = ')'
      · subst hclose
        cases depth with
        | zero => exact .takes [')'] ds ds' rfl rfl rfl rfl rest
        | succ depth =>
          have hnext : (Zone.inner (base + (depth + 1))).next ')' = .inner (base + depth) := rfl
          exact (ih hnext).prepend (x := [')']) rfl rfl
      · have hquiet : ∀ d ∈ [c], IsQuiet d := by
          rintro d hd
          obtain rfl := List.mem_singleton.1 hd
          have hquote : d ≠ '\'' ∧ d ≠ '"' := by
            constructor <;> rintro rfl <;> exact absurd plain (by decide)
          simp [IsQuiet, hopen, hclose, hquote]
        refine (ih (Zone.next_of_ne hopen hclose)).prepend (x := [c]) ?_ ?_
        · exact parenEnd_quiet depth hquiet ds
        · exact parenEnd_quiet depth hquiet ds'
  | name here there quiet rest ih =>
    subst hz
    exact (ih rfl).prepend (parenEnd_quiet depth (quiet trivial) _) (parenEnd_quiet depth (quiet trivial) _)
  | string here there rest ih =>
    exact (ih hz).prepend (parenEnd_string depth here) (parenEnd_string depth there)
  | @gap z gap gap' ds ds' held here there parted spaces inner rest ih =>
    subst hz
    have hspaces := inner trivial
    rw [spaces hspaces]
    have hquiet : ∀ c ∈ gap, IsQuiet c := by
      intro c hc hmark
      have hspace := hspaces c hc
      simp only [List.mem_cons, List.not_mem_nil, or_false] at hmark
      rcases hmark with rfl | rfl | rfl | rfl <;> exact absurd hspace (by decide)
    exact (ih rfl).prepend (parenEnd_quiet depth hquiet _) (parenEnd_quiet depth hquiet _)

/-- An expression in parentheses, once the list of columns has begun. -/
theorem parenExpr_agrees (h : Respaced z cs cs') (hcs : Settled cs) (hz : z.Entered) :
    parenExpr.Agrees z cs cs' := by
  have hfail {cs : List Char} (hcs : cs.head? ≠ some '(') : parenExpr (raise cs) = none :=
    chain_eq_none (word_mark_eq_none rfl hcs)
  by_cases hopen : cs.head? = some '('
  · obtain ⟨ds, ds', rfl, rfl, rest⟩ := h.cons_of_head? hcs hopen rfl
    have hnext : z.next '(' = z.opened := rfl
    rw [hnext] at rest
    refine Agrees.chain_of_takes (w := ['(']) rfl rfl (word_mark_cons rfl ds)
      (word_mark_cons rfl ds') ?_
    match z, hz with
    | .body, _ => exact parenEnd_agrees 0 rest rfl
    | .inner depth, _ => exact parenEnd_agrees (depth + 1) rest rfl
  · exact .fails (hfail hopen) (hfail (h.head?_eq hcs ▸ hopen))

/-! ## The current time -/

/-- What follows the opening of a precision. -/
def precisionEnd : Scan := all [run isSpace, run Char.isDigit, run isSpace, word [')']]

/-- The precision of the current time. -/
def precision : Scan := chain (run isSpace) (chain (word ['(']) precisionEnd)

theorem currentTimestamp_eq :
    currentTimestamp
      = chain (keyword ["CURRENT_TIMESTAMP", "LOCALTIMESTAMP", "LOCALTIME", "NOW"])
          (maybe precision) :=
  rfl

theorem run_spaces (gap : List Char) {rest : List Char} (hgap : ∀ c ∈ gap, isSpace c = true)
    (hrest : ∀ c ∈ rest.head?, isSpace c = false) :
    run isSpace (raise (gap ++ rest)) = some (raise gap, raise rest) := by
  have hraise : ∀ c ∈ raise gap, isSpace c = true := by
    intro c hc
    obtain ⟨d, hd, rfl⟩ := List.mem_map.1 hc
    rw [isSpace_toUpper, hgap d hd]
  rw [raise_append, run, List.takeWhile_append_of_pos hraise, List.dropWhile_append_of_pos hraise]
  cases rest with
  | nil => simp
  | cons c cs => simp [hrest c rfl]

/-- White space inside further parentheses. -/
theorem run_spaces_agrees (h : Respaced z cs cs') (hz : z.IsInner) : (run isSpace).Agrees z cs cs' := by
  rcases h.settled_or_gap with
    ⟨here, there⟩ | ⟨gap, gap', ds, ds', rfl, rfl, -, here, there, spaces, inner, rest⟩
  · exact .empty (run_spaces [] (by simp) here.head)
      (run_spaces [] (by simp) there.head) h
  · have hspaces := inner hz
    rw [spaces hspaces] at there ⊢
    exact .takes gap ds ds' rfl rfl (run_spaces gap hspaces here.settled.head)
      (run_spaces gap hspaces there.settled.head) rest

/-- A mark inside further parentheses. -/
theorem mark_agrees_inner {c : Char} (hc : c.isAlpha = false) (hquote : isQuote c = false)
    (hspace : isSpace c = false) (h : Respaced z cs cs') (hz : z.IsInner) :
    (word [c]).Agrees (z.next c) cs cs' := by
  rcases h.settled_or_gap with
    ⟨here, -⟩ | ⟨gap, gap', ds, ds', rfl, rfl, held, here, there, spaces, inner, rest⟩
  · exact mark_agrees hc hquote h here
  · have hspaces := inner hz
    have hne (ds : List Char) : (gap ++ ds).head? ≠ some c := by
      obtain ⟨d, gap, rfl⟩ := List.exists_cons_of_ne_nil held
      rintro ⟨⟩
      exact absurd (hspaces c (List.mem_cons_self ..)) (by simp [hspace])
    rw [spaces hspaces]
    exact .fails (word_mark_eq_none hc (hne ds)) (word_mark_eq_none hc (hne ds'))

theorem precisionEnd_agrees {depth : Nat} (h : Respaced (.inner depth) cs cs') :
    precisionEnd.Agrees (Zone.inner depth).closed cs cs' := by
  refine (run_spaces_agrees h trivial).chain fun _ _ h => ?_
  refine (steady_run inked_isDigit h).chain fun _ _ h => ?_
  refine (run_spaces_agrees h trivial).chain fun _ _ h => ?_
  refine (mark_agrees_inner rfl rfl rfl h trivial).chain fun _ _ h => ?_
  exact steady_all_nil h

theorem precision_space {c : Char} (cs : List Char) (hc : isSpace c = true)
    (h : precision cs = none) : precision (c :: cs) = none := by
  simp only [precision, Scan.chain, run, List.takeWhile_cons_of_pos hc,
    List.dropWhile_cons_of_pos hc, Option.map_eq_none_iff] at h ⊢
  exact h

/-- Where something else than a parenthesis stands first, or a comment before it, there is no
precision. -/
theorem precision_eq_none {gap rest : List Char} (h : Spacing gap rest)
    (hgap : (∃ c ∈ gap, isSpace c = false) ∨ rest.head? ≠ some '(') :
    precision (raise (gap ++ rest)) = none := by
  have hfail {cs : List Char} (hcs : ∀ c ∈ cs.head?, isSpace c = false) (hne : cs.head? ≠ some '(') :
      precision (raise cs) = none := by
    have hrun : run isSpace (raise cs) = some ([], raise cs) := run_spaces [] (by simp) hcs
    have hopen : chain (word ['(']) precisionEnd (raise cs) = none :=
      chain_eq_none (word_mark_eq_none rfl hne)
    rw [precision, Scan.chain, hrun]
    simp only [hopen, Option.map_none]
  induction gap with
  | nil =>
    refine hfail h.settled.head ?_
    simpa using hgap
  | cons c gap ih =>
    cases hc : isSpace c with
    | true =>
      refine precision_space _ (by simpa using hc) (ih (h.tail hc) ?_)
      simpa [hc] using hgap
    | false => exact hfail (by simpa using hc) (h.head?_ne (List.cons_ne_nil _ _) rfl (by decide))

theorem precision_agrees (gap : List Char) (hgap : ∀ c ∈ gap, isSpace c = true)
    (h : Respaced z cs cs') (hcs : Settled cs) (hcs' : Settled cs') (hz : z.Entered) :
    precision.Agrees z (gap ++ cs) (gap ++ cs') := by
  refine Agrees.chain_of_takes rfl rfl (run_spaces gap hgap hcs.head) (run_spaces gap hgap hcs'.head) ?_
  refine (mark_agrees rfl rfl h hcs).chain fun r r' hr => ?_
  have hnext : z.next '(' = z.opened := rfl
  rw [hnext] at hr
  match z, hz with
  | .body, _ => exact precisionEnd_agrees hr
  | .inner depth, _ => exact precisionEnd_agrees hr

/-- The current time is the same in both texts, unless a comment stands before a parenthesis. -/
theorem currentTimestamp_agrees (h : Respaced z cs cs') (hz : z.Entered) :
    currentTimestamp.Agrees z cs cs'
      ∨ ∃ w gap more, cs = w ++ (gap ++ '(' :: more) ∧ Spacing gap ('(' :: more)
          ∧ currentTimestamp (raise cs) = some (raise w, raise (gap ++ '(' :: more)) := by
  have hkeyword : (keyword ["CURRENT_TIMESTAMP", "LOCALTIMESTAMP", "LOCALTIME", "NOW"]).Steady :=
    steady_keyword (by decide)
  rw [currentTimestamp_eq]
  cases hkeyword h with
  | fails here there => exact Or.inl (.fails (chain_eq_none here) (chain_eq_none there))
  | takes w r r' split split' here there rest =>
    have hleft (hr : precision.Agrees z r r') :=
      Agrees.chain_of_takes split split' here there (hr.maybe rest)
    rcases rest.settled_or_gap with
      ⟨hr, hr'⟩ | ⟨gap, gap', ds, ds', rfl, rfl, held, hr, hr', spaces, -, hds⟩
    · exact Or.inl (hleft (precision_agrees [] (by simp) rest hr hr' hz))
    · by_cases hspaces : ∀ c ∈ gap, isSpace c = true
      · rw [spaces hspaces] at hleft hr'
        exact Or.inl (hleft (precision_agrees gap hspaces hds hr.settled hr'.settled hz))
      · have hcomment : ∃ c ∈ gap, isSpace c = false := by simpa using hspaces
        have hnone := precision_eq_none hr (Or.inl hcomment)
        -- Here only: without the comment the parenthesis is taken for a precision.
        by_cases hopen : ds.head? = some '('
        · obtain ⟨more, more', rfl, -, -⟩ := hds.cons_of_head? hr.settled hopen rfl
          refine Or.inr ⟨w, gap, more, split, hr, ?_⟩
          have hmaybe : maybe precision (raise (gap ++ '(' :: more))
              = some ([], raise (gap ++ '(' :: more)) := by
            rw [Scan.maybe.eq_1, hnone]
            rfl
          simp only [Scan.chain, here, hmaybe, Option.map_some, List.append_nil]
        · have hopen' : ds'.head? ≠ some '(' := hds.head?_eq hr.settled ▸ hopen
          exact Or.inl (hleft (.fails hnone (precision_eq_none hr' (Or.inr hopen'))))

end Scan

end GoScaffold.Grammar
