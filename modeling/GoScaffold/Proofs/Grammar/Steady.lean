import GoScaffold.Proofs.Grammar.Respaced

set_option autoImplicit false

/-! # Scanners on texts that differ in their spacing

A scanner is steady if, on two texts that differ in their spacing alone, it fails on both or takes the
same off both and leaves texts that again differ in their spacing alone. Scanners of words and
numbers are steady wherever they are tried. The others are so at the places where tokens are tried,
which no spacing precedes. -/

namespace GoScaffold.Grammar

open Text

namespace Scan

/-- The scanner fails on both texts, or takes the same off both. -/
inductive Agrees (s : Scan) (z : Zone) (cs cs' : List Char) : Prop
  | fails (here : s (raise cs) = none) (there : s (raise cs') = none)
  | takes (w r r' : List Char) (split : cs = w ++ r) (split' : cs' = w ++ r')
    (here : s (raise cs) = some (raise w, raise r))
    (there : s (raise cs') = some (raise w, raise r')) (rest : Respaced z r r')

/-- The scanner does the same on all texts that differ in their spacing alone. -/
def Steady (s : Scan) : Prop :=
  ∀ ⦃z : Zone⦄ ⦃cs cs' : List Char⦄, Respaced z cs cs' → s.Agrees z cs cs'

variable {a b s : Scan} {z z' : Zone} {cs cs' : List Char}

namespace Agrees

/-- A scanner that takes nothing off either text. -/
theorem empty (here : s (raise cs) = some ([], raise cs)) (there : s (raise cs') = some ([], raise cs'))
    (h : Respaced z cs cs') : s.Agrees z cs cs' :=
  .takes [] cs cs' rfl rfl here there h

theorem chain_of_takes {w r r' : List Char} (split : cs = w ++ r) (split' : cs' = w ++ r')
    (here : a (raise cs) = some (raise w, raise r)) (there : a (raise cs') = some (raise w, raise r'))
    (hb : b.Agrees z r r') : (chain a b).Agrees z cs cs' := by
  cases hb with
  | fails here' there' =>
    exact .fails (by simp [Scan.chain, here, here']) (by simp [Scan.chain, there, there'])
  | takes v t t' hv hv' here' there' rest' =>
    refine .takes (w ++ v) t t' ?_ ?_ ?_ ?_ rest'
    · rw [split, hv, List.append_assoc]
    · rw [split', hv', List.append_assoc]
    · simp [Scan.chain, here, here']
    · simp [Scan.chain, there, there']

theorem chain (ha : a.Agrees z cs cs')
    (hb : ∀ r r', Respaced z r r' → b.Agrees z' r r') : (chain a b).Agrees z' cs cs' := by
  cases ha with
  | fails here there => exact .fails (by simp [Scan.chain, here]) (by simp [Scan.chain, there])
  | takes w r r' split split' here there rest =>
    exact chain_of_takes split split' here there (hb r r' rest)

theorem either (ha : a.Agrees z cs cs') (hb : b.Agrees z cs cs') : (either a b).Agrees z cs cs' := by
  cases ha with
  | fails here there =>
    have hhere : Scan.either a b (raise cs) = b (raise cs) := by rw [Scan.either, here, Option.none_or]
    have hthere : Scan.either a b (raise cs') = b (raise cs') := by
      rw [Scan.either, there, Option.none_or]
    cases hb with
    | fails here' there' => exact .fails (hhere.trans here') (hthere.trans there')
    | takes w r r' split split' here' there' rest =>
      exact .takes w r r' split split' (hhere.trans here') (hthere.trans there') rest
  | takes w r r' split split' here there rest =>
    exact .takes w r r' split split' (by simp [Scan.either, here]) (by simp [Scan.either, there]) rest

theorem maybe (ha : a.Agrees z cs cs') (h : Respaced z cs cs') : (maybe a).Agrees z cs cs' := by
  cases ha with
  | fails here there =>
    exact .empty (by simp [Scan.maybe, here]) (by simp [Scan.maybe, there]) h
  | takes w r r' split split' here there rest =>
    exact .takes w r r' split split' (by simp [Scan.maybe, here]) (by simp [Scan.maybe, there]) rest

end Agrees

/-! ## Words and numbers -/

theorem Steady.chain (ha : a.Steady) (hb : b.Steady) : (chain a b).Steady :=
  fun _ _ _ h => (ha h).chain fun _ _ hr => hb hr

theorem Steady.either (ha : a.Steady) (hb : b.Steady) : (either a b).Steady :=
  fun _ _ _ h => (ha h).either (hb h)

theorem Steady.maybe (ha : a.Steady) : (maybe a).Steady := fun _ _ _ h => (ha h).maybe h

theorem steady_all_nil : (all []).Steady := fun _ _ _ h => .empty rfl rfl h

theorem steady_first_nil : (first []).Steady := fun _ _ _ _ => .fails rfl rfl

/-- Only characters of words and numbers satisfy the property. -/
def Inked (p : Char → Bool) : Prop := ∀ c, p c = true → isInked c = true

theorem Inked.eq_false {p : Char → Bool} (hp : Inked p) {c : Char} (hc : isInked c = false) :
    p c.toUpper = false := by
  refine Bool.eq_false_iff.2 fun hpc => ?_
  have hinked := hp _ hpc
  rw [isInked_toUpper, hc] at hinked
  exact Bool.false_ne_true hinked

theorem one_eq_none {p : Char → Bool} (hp : Inked p) (h : Uninked cs) : one p (raise cs) = none := by
  cases cs with
  | nil => rfl
  | cons c cs => simp [one, hp.eq_false (h c rfl)]

theorem steady_one {p : Char → Bool} (hp : Inked p) : (one p).Steady := by
  intro z cs cs' h
  rcases h.head with ⟨c, ds, ds', rfl, rfl, -, hds⟩ | ⟨here, there⟩
  · cases hc : p c.toUpper with
    | true => exact .takes [c] ds ds' rfl rfl (by simp [one, hc]) (by simp [one, hc]) hds
    | false => exact .fails (by simp [one, hc]) (by simp [one, hc])
  · exact .fails (one_eq_none hp here) (one_eq_none hp there)

theorem run_eq_empty {p : Char → Bool} (hp : Inked p) (h : Uninked cs) :
    run p (raise cs) = some ([], raise cs) := by
  cases cs with
  | nil => rfl
  | cons c cs => simp [run, hp.eq_false (h c rfl)]

theorem steady_run {p : Char → Bool} (hp : Inked p) : (run p).Steady := by
  intro z cs cs' h
  induction cs generalizing cs' with
  | nil =>
    rcases h.head with ⟨c, ds, ds', hcs, -⟩ | ⟨here, there⟩
    · exact absurd hcs (by simp)
    · exact .empty (run_eq_empty hp here) (run_eq_empty hp there) h
  | cons c ds ih =>
    rcases h.head with ⟨c', ds', es', hcs, rfl, -, hds⟩ | ⟨here, there⟩
    · obtain ⟨rfl, rfl⟩ := List.cons.inj hcs
      cases hc : p c.toUpper with
      | true =>
        cases ih hds with
        | fails here there => exact absurd here (by simp [run])
        | takes w r r' split split' here there rest =>
          simp only [run, Option.some.injEq, Prod.mk.injEq] at here there
          refine .takes (c :: w) r r' (by rw [split]; rfl) (by rw [split']; rfl) ?_ ?_ rest
          · simp [run, hc, here]
          · simp [run, hc, there]
      | false => exact .empty (by simp [run, hc]) (by simp [run, hc]) h
    · exact .empty (run_eq_empty hp here) (run_eq_empty hp there) h

theorem steady_run1 {p : Char → Bool} (hp : Inked p) : (run1 p).Steady :=
  (steady_one hp).chain (steady_run hp)

theorem word_cons (d : Char) (w : List Char) :
    word (d :: w) = chain (one (· == d)) (word w) := by
  funext cs
  cases cs with
  | nil => rfl
  | cons c cs =>
    by_cases hc : d = c
    · simp [word, chain, one, hc, List.isPrefixOf?, Function.comp_def]
    · simp [word, chain, one, hc, Ne.symm hc, List.isPrefixOf?]

/-- A word of capitals, digits and the like is steady. -/
theorem steady_word {w : List Char} (hw : ∀ c ∈ w, isInked c = true) : (word w).Steady := by
  induction w with
  | nil => exact fun _ _ _ h => .empty rfl rfl h
  | cons d w ih =>
    rw [word_cons]
    refine Steady.chain (steady_one fun c hc => ?_) (ih fun c hc => hw c (List.mem_cons_of_mem _ hc))
    obtain rfl : c = d := by simpa using hc
    exact hw c (List.mem_cons_self ..)

theorem steady_notBefore : (notBefore isIdentChar).Steady := by
  intro z cs cs' h
  have hempty {cs : List Char} (hcs : Uninked cs) :
      notBefore isIdentChar (raise cs) = some ([], raise cs) := by
    refine notBefore_of_endsWord (endsWord_raise fun c hc => ?_)
    have huninked := hcs c hc
    rw [isInked, Bool.or_eq_false_iff] at huninked
    exact huninked.1
  rcases h.head with ⟨c, ds, ds', rfl, rfl, -, hds⟩ | ⟨here, there⟩
  · cases hc : isIdentChar c with
    | true => exact .fails (by simp [notBefore, hc]) (by simp [notBefore, hc])
    | false => exact .empty (by simp [notBefore, hc]) (by simp [notBefore, hc]) h
  · exact .empty (hempty here) (hempty there) h

theorem steady_keyword {words : List String}
    (hwords : ∀ u ∈ words, ∀ c ∈ u.toList, isInked c = true) : (keyword words).Steady := by
  refine Steady.chain ?_ steady_notBefore
  induction words with
  | nil => exact steady_first_nil
  | cons u words ih =>
    exact (steady_word (hwords u (List.mem_cons_self ..))).either
      (ih fun v hv => hwords v (List.mem_cons_of_mem _ hv))

theorem inked_of_isIdentChar {p : Char → Bool} (hp : ∀ c, p c = true → isIdentChar c = true) :
    Inked p := by
  intro c hc
  rw [isInked, hp c hc, Bool.true_or]

theorem isIdentChar_of_isAlphanum {c : Char} (h : c.isAlphanum = true) : isIdentChar c = true := by
  simp [isIdentChar, h]

theorem inked_isDigit : Inked Char.isDigit :=
  inked_of_isIdentChar fun _ hc => isIdentChar_of_isDigit hc

theorem inked_isHexDigit : Inked isHexDigit := by
  refine inked_of_isIdentChar fun c hc => isIdentChar_of_isAlphanum ?_
  simp only [isHexDigit, Bool.or_eq_true, Bool.and_eq_true, decide_eq_true_eq, isDigit_iff,
    Char.le_def, UInt32.le_iff_toNat_le] at hc
  have hcode : (48 ≤ c.toNat ∧ c.toNat ≤ 57 ∨ 97 ≤ c.toNat ∧ c.toNat ≤ 102)
      ∨ 65 ≤ c.toNat ∧ c.toNat ≤ 70 := hc
  rw [isAlphanum_iff]
  omega

theorem steady_bareIdent : bareIdent.Steady := steady_run1 (inked_of_isIdentChar fun _ hc => hc)

theorem steady_typeName : typeName.Steady := by
  refine (steady_one ?_).chain (steady_run ?_)
  · exact inked_of_isIdentChar fun c hc => isIdentChar_of_isAlphanum (by simp [Char.isAlphanum, hc])
  · refine inked_of_isIdentChar fun c hc => ?_
    rw [Bool.or_eq_true] at hc
    rcases hc with hc | hc
    · exact isIdentChar_of_isAlphanum hc
    · simp [isIdentChar, hc]

theorem chain_eq_none {cs : List Char} (h : a cs = none) : chain a b cs = none := by
  simp [Scan.chain, h]

theorem sign_eq_none (h : ∀ c ∈ cs.head?, c ≠ '-' ∧ c ≠ '+') : sign (raise cs) = none := by
  cases cs with
  | nil => rfl
  | cons c cs =>
    have hc := h c (by simp)
    have hminus : c.toUpper ≠ '-' := fun h => hc.1 ((toUpper_eq_iff rfl).1 h)
    have hplus : c.toUpper ≠ '+' := fun h => hc.2 ((toUpper_eq_iff rfl).1 h)
    simp [sign, one, hminus, hplus]

theorem signed_of_head (h : ∀ c ∈ cs.head?, c ≠ '-' ∧ c ≠ '+') :
    chain (maybe sign) s (raise cs) = s (raise cs) := by
  simp [Scan.chain, Scan.maybe, sign_eq_none h]

/-- Where a sign stands first, it is the dash of a comment. -/
theorem broken_sign (h : Broken cs) :
    (∀ c ∈ cs.head?, c ≠ '-' ∧ c ≠ '+')
      ∨ ∃ gap rest, cs = '-' :: gap ++ rest ∧ Spacing ('-' :: gap) rest := by
  have hother {c : Char} (cs l : List Char) (hc : c ∈ l) (hl : ∀ d ∈ l, d ≠ '-' ∧ d ≠ '+') :
      ∀ d ∈ (c :: cs).head?, d ≠ '-' ∧ d ≠ '+' := by
    intro d hd
    obtain rfl := Option.some.inj hd
    exact hl c hc
  cases h with
  | stop => exact Or.inl (by simp)
  | @quote q cs h =>
    exact Or.inl (hother cs ['`', '\'', '"'] (by simpa [isQuote, or_assoc] using h) (by decide))
  | mark cs h => exact Or.inl (hother cs _ h (by decide))
  | @spacing gap rest held h =>
    obtain ⟨c, gap, rfl⟩ := List.exists_cons_of_ne_nil held
    by_cases hc : c = '-'
    · subst hc
      exact Or.inr ⟨gap, rest, rfl, h⟩
    · refine Or.inl fun d hd => ?_
      obtain rfl := Option.some.inj hd
      refine ⟨hc, ?_⟩
      rintro rfl
      rcases h.head with hspace | hmark
      · exact absurd hspace (by decide)
      · exact absurd hmark (by decide)

/-- The dash of a comment is no sign of a number. -/
theorem signed_broken (hs : ∀ cs, Uninked cs → s (raise cs) = none) (h : Broken cs) :
    chain (maybe sign) s (raise cs) = none := by
  -- A dash is taken as the sign, but then comes the second dash of the comment.
  rcases broken_sign h with hc | ⟨gap, rest, rfl, hspacing⟩
  · rw [signed_of_head hc, hs _ h.uninked]
  · obtain ⟨more, hmore⟩ := hspacing.dash
    have huninked : Uninked (gap ++ rest) := by
      obtain ⟨ds, hds⟩ := exists_of_raise_eq_cons rfl hmore
      rw [hds]
      exact uninked_of_mem _ ['-'] (by simp) (by decide)
    have hsign : maybe sign (raise ('-' :: gap ++ rest)) = some (['-'], raise (gap ++ rest)) := rfl
    simp only [Scan.chain, hsign, hs _ huninked, Option.map_none]

/-- Something that is steady and begins with a character of words and numbers, after a sign. -/
theorem steady_signed (hs : s.Steady) (hfail : ∀ cs, Uninked cs → s (raise cs) = none) :
    (chain (maybe sign) s).Steady := by
  intro z cs cs' h
  rcases h.split with ⟨c, ds, ds', rfl, rfl, -, rest⟩ | ⟨here, there⟩
  · by_cases hc : c = '-' ∨ c = '+'
    · have hsign : (maybe sign).Agrees z (c :: ds) (c :: ds') := by
        have hne : c ≠ '(' ∧ c ≠ ')' := by
          rcases hc with rfl | rfl <;> decide
        rw [Zone.next_of_ne hne.1 hne.2] at rest
        refine .takes [c] ds ds' rfl rfl ?_ ?_ rest
        · rcases hc with rfl | rfl <;> rfl
        · rcases hc with rfl | rfl <;> rfl
      exact hsign.chain fun _ _ hr => hs hr
    · have hhead (ds : List Char) : ∀ d ∈ (c :: ds).head?, d ≠ '-' ∧ d ≠ '+' := by
        intro d hd
        obtain rfl := Option.some.inj hd
        exact not_or.1 hc
      cases hs h with
      | fails here there =>
        exact .fails ((signed_of_head (hhead ds)).trans here) ((signed_of_head (hhead ds')).trans there)
      | takes w r r' split split' here there rest =>
        exact .takes w r r' split split' ((signed_of_head (hhead ds)).trans here)
          ((signed_of_head (hhead ds')).trans there) rest
  · exact .fails (signed_broken hfail here) (signed_broken hfail there)

theorem run1_eq_none {p : Char → Bool} (hp : Inked p) (h : Uninked cs) : run1 p (raise cs) = none :=
  chain_eq_none (one_eq_none hp h)

theorem word_eq_none_of_uninked {c : Char} (w : List Char) (hc : isInked c = true) (h : Uninked cs) :
    word (c :: w) (raise cs) = none := by
  rw [word_cons]
  refine chain_eq_none (one_eq_none (fun d hd => ?_) h)
  obtain rfl : d = c := by simpa using hd
  exact hc

theorem number_eq_none (h : Uninked cs) : number (raise cs) = none := by
  have hword : word ['0', 'X'] (raise cs) = none := word_eq_none_of_uninked _ (by decide) h
  have hrun : run1 Char.isDigit (raise cs) = none := run1_eq_none inked_isDigit h
  have hpoint : word ['.'] (raise cs) = none := word_eq_none_of_uninked _ (by decide) h
  simp [number, Scan.either, Scan.chain, hword, hrun, hpoint]

theorem steady_number : number.Steady := by
  have hdigits : (run1 Char.isDigit).Steady := steady_run1 inked_isDigit
  have hpoint : (word ['.']).Steady := steady_word (by decide)
  have hexponent : (all [word ['E'], maybe sign, run1 Char.isDigit]).Steady := by
    refine Steady.chain (steady_word (by decide)) ?_
    refine steady_signed (hdigits.chain steady_all_nil) fun cs h => ?_
    exact chain_eq_none (run1_eq_none inked_isDigit h)
  have hhex := (steady_word (w := ['0', 'X']) (by decide)).chain (steady_run1 inked_isHexDigit)
  refine hhex.either (Steady.chain (Steady.either ?_ ?_) hexponent.maybe)
  · exact hdigits.chain (hpoint.chain (steady_run inked_isDigit)).maybe
  · exact hpoint.chain hdigits

theorem steady_signedNumber : signedNumber.Steady :=
  steady_signed steady_number fun _ h => number_eq_none h

end Scan

end GoScaffold.Grammar
