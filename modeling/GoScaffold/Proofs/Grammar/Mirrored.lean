import GoScaffold.Proofs.Grammar.Lexeme
import GoScaffold.Proofs.Grammar.Told

set_option autoImplicit false

/-! # Matches on two texts

Places in two texts are paired (`Pairing`) if what follows them differs in no more than white space and
comments, in one way or another, and if skipping these leads from pair to pair. An expression is
mirrored (`Expr.Mirrored`) if it matches at paired places in the same way: it fails at both, or it leads
to trees that tell the same (`Tree.told`) and to places that are paired again. Every form of expression
keeps that, so only tokens are left to show for each pairing.

In texts that differ in their spacing alone (`respaced`) one token is not mirrored: with a comment gone,
the current time may take a parenthesis that it left before. Nothing that may follow it takes a
parenthesis, so a match that has passed such a place is stuck there. -/

namespace GoScaffold.Grammar

open Text

/-! ## Pairs of places -/

/-- A place in each of two texts. -/
structure Spot where
  before : List Char
  before' : List Char
  cs : List Char
  cs' : List Char

namespace Spot

/-- The place in the first text. -/
def here (p : Spot) : Cursor := .place p.before p.cs

/-- The place in the second text. -/
def there (p : Spot) : Cursor := .place p.before' p.cs'

/-- The first text. -/
def text (p : Spot) : List Char := p.before ++ p.cs

/-- The second text. -/
def text' (p : Spot) : List Char := p.before' ++ p.cs'

/-- Neither place has spacing right after it. -/
def IsSettled (p : Spot) : Prop := Settled p.cs ∧ Settled p.cs'

/-- The places after something of each text. -/
structure Leaves (p : Spot) (w w' : List Char) (q : Spot) : Prop where
  before : q.before = p.before ++ w
  before' : q.before' = p.before' ++ w'
  cs : p.cs = w ++ q.cs
  cs' : p.cs' = w' ++ q.cs'

variable {p q r : Spot} {v v' w w' : List Char}

theorem Leaves.refl (p : Spot) : p.Leaves [] [] p := by
  constructor <;> simp

theorem Leaves.trans (h : p.Leaves w w' q) (h' : q.Leaves v v' r) :
    p.Leaves (w ++ v) (w' ++ v') r := by
  constructor
  · rw [h'.before, h.before, List.append_assoc]
  · rw [h'.before', h.before', List.append_assoc]
  · rw [h.cs, h'.cs, List.append_assoc]
  · rw [h.cs', h'.cs', List.append_assoc]

theorem Leaves.text_eq (h : p.Leaves w w' q) : q.text = p.text := by
  rw [text, text, h.before, h.cs, List.append_assoc]

theorem Leaves.text'_eq (h : p.Leaves w w' q) : q.text' = p.text' := by
  rw [text', text', h.before', h.cs', List.append_assoc]

end Spot

/-- Places of two texts that are matched alike. The zone tells where among parentheses they stand; white
space and comments are skipped from pair to pair. -/
structure Pairing where
  Holds : Zone → Spot → Prop
  exists_skip : ∀ ⦃z : Zone⦄ ⦃p : Spot⦄, Holds z p →
    ∃ w w' q, p.Leaves w w' q ∧ p.here.skip = q.here ∧ p.there.skip = q.there ∧ q.IsSettled ∧ Holds z q

/-- The texts differ in their spacing alone from here on. -/
def respaced : Pairing where
  Holds z p := Respaced z p.cs p.cs'
  exists_skip z p h := by
    rcases h.settled_or_gap with
      ⟨hcs, hcs'⟩ | ⟨gap, gap', ds, ds', hcs, hcs', -, hgap, hgap', -, -, rest⟩
    · exact ⟨[], [], p, .refl p, Cursor.skip_place_of_settled hcs, Cursor.skip_place_of_settled hcs',
        ⟨hcs, hcs'⟩, h⟩
    · refine ⟨gap, gap', ⟨p.before ++ gap, p.before' ++ gap', ds, ds'⟩, ⟨rfl, rfl, hcs, hcs'⟩, ?_, ?_,
        ⟨hgap.settled, hgap'.settled⟩, rest⟩
      · rw [Spot.here, hcs]
        exact hgap.skip p.before
      · rw [Spot.there, hcs']
        exact hgap'.skip p.before'

/-- The scanner takes something wherever it matches. -/
def Scan.Bites (s : Scan) : Prop := ∀ cs rest, s cs ≠ some ([], rest)

namespace Expr

variable {R : Pairing}

/-! ## The same match twice -/

/-- Both matches fail, or both lead on in the same way; where `moves` holds, something is taken. -/
inductive Alike (R : Pairing) (moves : Prop) (T : Zone → Prop) (p : Spot)
    (o o' : Option (List Tree × Cursor)) : Prop
  | fails (here : o = none) (there : o' = none)
  | leads (z : Zone) (w w' : List Char) (q : Spot) (ts ts' : List Tree) (leaves : p.Leaves w w' q)
    (here : o = some (ts, q.here)) (there : o' = some (ts', q.there))
    (taken : moves → w ≠ [] ∧ w' ≠ []) (told : Tree.toldAll p.text ts = Tree.toldAll p.text' ts')
    (zone : T z) (rest : R.Holds z q)

/-- The scanner fails at both places, or it takes the same off both texts and leads to paired places;
where `moves` holds, something is taken. -/
def Advances (R : Pairing) (moves : Prop) (z : Zone) (p : Spot) (s : Scan) : Prop :=
  (p.here.advance? s = none ∧ p.there.advance? s = none)
    ∨ ∃ w q, p.Leaves w w q ∧ p.here.advance? s = some q.here ∧ p.there.advance? s = some q.there
        ∧ (moves → w ≠ []) ∧ R.Holds z q

namespace Advances

variable {moves : Prop} {z : Zone} {p : Spot} {s : Scan}

theorem fails (here : s (raise p.cs) = none) (there : s (raise p.cs') = none) :
    Advances R moves z p s :=
  Or.inl ⟨by simp [Cursor.advance?, Spot.here, Cursor.place, here],
    by simp [Cursor.advance?, Spot.there, Cursor.place, there]⟩

theorem takes {w v v' : List Char} (split : p.cs = w ++ v) (split' : p.cs' = w ++ v')
    (here : s (raise p.cs) = some (raise w, raise v))
    (there : s (raise p.cs') = some (raise w, raise v'))
    (hbites : moves → s.Bites)
    (rest : R.Holds z ⟨p.before ++ w, p.before' ++ w, v, v'⟩) : Advances R moves z p s := by
  refine Or.inr ⟨w, ⟨p.before ++ w, p.before' ++ w, v, v'⟩, ⟨rfl, rfl, split, split'⟩, ?_, ?_, ?_, rest⟩
  · simp [Cursor.advance?, Spot.here, Cursor.place, here]
  · simp [Cursor.advance?, Spot.there, Cursor.place, there]
  · rintro hm rfl
    exact hbites hm _ _ here

end Advances

/-- The match leads to a place where a parenthesis stands next. -/
def Stuck (o : Option (List Tree × Cursor)) : Prop :=
  ∃ ts d more, o = some (ts, d) ∧ d.skip.rest = '(' :: more

/-- The expression matches at paired places in the same way, from zones in `S` to zones in `T`; where
`sticks` holds, it may also get stuck in the first text. -/
def Mirrored (R : Pairing) (sticks moves : Prop) (S T : Zone → Prop) (e : Expr) : Prop :=
  ∀ ⦃z : Zone⦄ ⦃p : Spot⦄, S z → R.Holds z p → p.IsSettled →
    Alike R moves T p (found e p.here) (found e p.there) ∨ (sticks ∧ Stuck (found e p.here))

/-- A match is one token. -/
def Single (e : Expr) : Prop :=
  ∀ ⦃c d : Cursor⦄ ⦃ts : List Tree⦄, found e c = some (ts, d) →
    ∃ r, r.isTold = true ∧ ts = [.node r c.offset d.offset []]

theorem Single.token {r : Rule} {s : Scan} (hr : r.isTold = true) : Single (.token r s) := by
  intro c d ts h
  exact ⟨r, hr, (found_token_iff.1 h).2⟩

theorem Single.alt {a b : Expr} (ha : Single a) (hb : Single b) : Single (.alt a b) := by
  intro c d ts h
  rcases found_alt_iff.1 h with h | ⟨-, h⟩
  · exact ha h
  · exact hb h

/-- Where a parenthesis stands first, the expression matches without taking anything. -/
def Passes (e : Expr) : Prop :=
  ∀ ⦃c : Cursor⦄ ⦃more : List Char⦄, c.rest = '(' :: more → ∃ ts, found e c = some (ts, c)

/-- Where a parenthesis stands first, the expression fails. -/
def Balks (e : Expr) : Prop :=
  ∀ ⦃c : Cursor⦄ ⦃more : List Char⦄, c.rest = '(' :: more → found e c = none

theorem skip_of_paren {c : Cursor} {more : List Char} (hc : c.rest = '(' :: more) : c.skip = c := by
  have hblanks : Scan.blanks ('(' :: more) = ([], '(' :: more) := rfl
  rw [Cursor.skip, hc, hblanks, ← hc]
  rfl

namespace Balks

variable {a b e : Expr}

theorem seq (h : Balks a) : Balks (.seq a b) :=
  fun _ _ hc => found_seq_eq_none (h hc)

theorem phrase {r : Rule} (h : Balks e) : Balks (.phrase r e) :=
  fun _ _ hc => found_phrase_eq_none (h hc)

theorem alt (ha : Balks a) (hb : Balks b) : Balks (.alt a b) := by
  intro c more hc
  rw [found, ha hc, hb hc]
  rfl

theorem opt_seq (ha : Balks a) (hb : Balks b) : Balks (.seq (.opt a) b) := by
  intro c more hc
  have hopt : found (.opt a) c = some ([], c) := by
    rw [found, ha hc]
    rfl
  rw [found, hopt]
  simp only [Option.bind_some, skip_of_paren hc, hb hc, Option.map_none]

theorem many (h : Balks e) : Passes (.many e) := by
  intro c more hc
  exact ⟨[], by rw [found, h hc]⟩

end Balks

namespace Mirrored

variable {a b e : Expr} {sticks moves movesA movesB : Prop} {S T U : Zone → Prop}

theorem mono {sticks' moves' : Prop} (h : Mirrored R sticks moves S T e)
    (hsticks : sticks → sticks') (hmoves : moves' → moves) : Mirrored R sticks' moves' S T e := by
  intro z p hz hp hsettled
  rcases h hz hp hsettled with halike | ⟨hs, hstuck⟩
  · refine Or.inl ?_
    cases halike with
    | fails here there => exact .fails here there
    | leads z w w' q ts ts' leaves here there taken told zone rest =>
      exact .leads z w w' q ts ts' leaves here there (fun hm => taken (hmoves hm)) told zone rest
  · exact Or.inr ⟨hsticks hs, hstuck⟩

theorem alt (ha : Mirrored R sticks moves S T a) (hb : Mirrored R sticks moves S T b) :
    Mirrored R sticks moves S T (.alt a b) := by
  intro z p hz hp hsettled
  rcases ha hz hp hsettled with halike | ⟨hs, ts, d, more, hfound, hd⟩
  · cases halike with
    | fails here there =>
      have hhere : found (.alt a b) p.here = found b p.here := by rw [found, here, Option.none_or]
      have hthere : found (.alt a b) p.there = found b p.there := by
        rw [found, there, Option.none_or]
      rw [hhere, hthere]
      exact hb hz hp hsettled
    | leads z w w' q ts ts' leaves here there taken told zone rest =>
      refine Or.inl (.leads z w w' q ts ts' leaves ?_ ?_ taken told zone rest)
      · rw [found, here, Option.some_or]
      · rw [found, there, Option.some_or]
  · refine Or.inr ⟨hs, ts, d, more, ?_, hd⟩
    rw [found, hfound, Option.some_or]

theorem opt (h : Mirrored R sticks moves S S e) : Mirrored R sticks False S S (.opt e) := by
  intro z p hz hp hsettled
  rcases h hz hp hsettled with halike | ⟨hs, ts, d, more, hfound, hd⟩
  · refine Or.inl ?_
    cases halike with
    | fails here there =>
      refine .leads z [] [] p [] [] (.refl p) ?_ ?_ False.elim rfl hz hp
      · rw [found, here]
        rfl
      · rw [found, there]
        rfl
    | leads z w w' q ts ts' leaves here there taken told zone rest =>
      refine .leads z w w' q ts ts' leaves ?_ ?_ False.elim told zone rest
      · rw [found, here]
        rfl
      · rw [found, there]
        rfl
  · refine Or.inr ⟨hs, ts, d, more, ?_, hd⟩
    rw [found, hfound]
    rfl

theorem never (h : Mirrored R False moves S T e) : Mirrored R False False S S (.never e) := by
  intro z p hz hp hsettled
  refine Or.inl ?_
  rcases h hz hp hsettled with halike | ⟨hs, -⟩
  · cases halike with
    | fails here there =>
      refine .leads z [] [] p [] [] (.refl p) ?_ ?_ False.elim rfl hz hp
      · simp [found, here]
      · simp [found, there]
    | leads z w w' q ts ts' leaves here there taken told zone rest =>
      exact .fails (by simp [found, here]) (by simp [found, there])
  · exact hs.elim

theorem alike_phrase {r : Rule} {p : Spot} (hr : r.isTold = false)
    (h : Alike R moves T p (found e p.here) (found e p.there)) :
    Alike R moves T p (found (.phrase r e) p.here) (found (.phrase r e) p.there) := by
  cases h with
  | fails here there => exact .fails (found_phrase_eq_none here) (found_phrase_eq_none there)
  | leads z w w' q ts ts' leaves here there taken told zone rest =>
    refine .leads z w w' q _ _ leaves (by rw [found, here]; rfl) (by rw [found, there]; rfl) taken ?_
      zone rest
    simp [Tree.toldAll, Tree.told, hr, told]

theorem phrase {r : Rule} (hr : r.isTold = false) (h : Mirrored R sticks moves S T e) :
    Mirrored R sticks moves S T (.phrase r e) := by
  intro z p hz hp hsettled
  rcases h hz hp hsettled with halike | ⟨hs, ts, d, more, hfound, hd⟩
  · exact Or.inl (alike_phrase hr halike)
  · refine Or.inr ⟨hs, [.node r p.here.offset d.offset ts], d, more, ?_, hd⟩
    rw [found, hfound]
    rfl

/-! ## Tokens -/

/-- A scanner that leads from pair to pair, as a token. -/
theorem alike_token {r : Rule} {s : Scan} {z : Zone} {p : Spot} (h : Advances R moves z p s)
    (hz : T z) : Alike R moves T p (found (.token r s) p.here) (found (.token r s) p.there) := by
  rcases h with ⟨here, there⟩ | ⟨w, q, leaves, here, there, hw, rest⟩
  · exact .fails (by simp [found, here]) (by simp [found, there])
  · refine .leads z w w q _ _ leaves (by rw [found, here]; rfl) (by rw [found, there]; rfl)
      (fun hm => ⟨hw hm, hw hm⟩) ?_ hz rest
    have hslice : Span.slice ⟨p.here.offset, q.here.offset⟩ p.text = w := by
      rw [Spot.text, leaves.cs, Spot.here, Spot.here, leaves.before, Cursor.place, Cursor.place,
        width_append, Span.slice_part]
    have hslice' : Span.slice ⟨p.there.offset, q.there.offset⟩ p.text' = w := by
      rw [Spot.text', leaves.cs', Spot.there, Spot.there, leaves.before', Cursor.place, Cursor.place,
        width_append, Span.slice_part]
    simp [Tree.toldAll, Tree.told, hslice, hslice']

/-- A scanner that leads from pair to pair and leaves no tree. -/
theorem alike_silent {s : Scan} {z : Zone} {p : Spot} (h : Advances R moves z p s) (hz : T z) :
    Alike R moves T p (found (.silent s) p.here) (found (.silent s) p.there) := by
  rcases h with ⟨here, there⟩ | ⟨w, q, leaves, here, there, hw, rest⟩
  · exact .fails (by simp [found, here]) (by simp [found, there])
  · exact .leads z w w q [] [] leaves (by rw [found, here]; rfl) (by rw [found, there]; rfl)
      (fun hm => ⟨hw hm, hw hm⟩) rfl hz rest

/-- A phrase of one token tells no more than the token. -/
theorem phrase_single {r : Rule} (hsingle : Single e) (h : Mirrored R sticks moves S T e) :
    Mirrored R sticks moves S T (.phrase r e) := by
  intro z p hz hp hsettled
  rcases h hz hp hsettled with halike | ⟨hs, ts, d, more, hfound, hd⟩
  · refine Or.inl ?_
    cases halike with
    | fails here there => exact .fails (by simp [found, here]) (by simp [found, there])
    | leads z w w' q ts ts' leaves here there taken told zone rest =>
      refine .leads z w w' q _ _ leaves (by rw [found, here]; rfl) (by rw [found, there]; rfl) taken ?_
        zone rest
      -- The phrase has the span of its token, and what the tokens tell holds the text there.
      obtain ⟨s, hs, rfl⟩ := hsingle here
      obtain ⟨s', hs', rfl⟩ := hsingle there
      have hslice : Span.slice ⟨p.here.offset, q.here.offset⟩ p.text
          = Span.slice ⟨p.there.offset, q.there.offset⟩ p.text' := by
        simp only [Tree.toldAll, Tree.told, hs, hs', if_true, List.cons.injEq, Told.node.injEq] at told
        exact told.1.2.1
      simp only [Tree.toldAll, Tree.told] at told ⊢
      rw [told, hslice]
  · refine Or.inr ⟨hs, [.node r p.here.offset d.offset ts], d, more, ?_, hd⟩
    rw [found, hfound]
    rfl

/-! ## Sequences -/

/-- One match after another. -/
theorem alike_after {w w' : List Char} {p q : Spot} {ts ts' : List Tree}
    {o o' : Option (List Tree × Cursor)} (leaves : p.Leaves w w' q)
    (taken : movesA → w ≠ [] ∧ w' ≠ []) (told : Tree.toldAll p.text ts = Tree.toldAll p.text' ts')
    (h : Alike R movesB U q o o') :
    Alike R (movesA ∨ movesB) U p (o.map fun (us, e) => (ts ++ us, e))
      (o'.map fun (us, e) => (ts' ++ us, e)) := by
  cases h with
  | fails here there => exact .fails (by rw [here]; rfl) (by rw [there]; rfl)
  | leads z v v' r us us' leaves' here there taken' told' zone rest =>
    refine .leads z _ _ r (ts ++ us) (ts' ++ us') (leaves.trans leaves') (by rw [here]; rfl)
      (by rw [there]; rfl) ?_ ?_ zone rest
    · rintro (hm | hm)
      · simp [taken hm]
      · simp [taken' hm]
    · rw [Tree.toldAll_append, Tree.toldAll_append, told, ← leaves.text_eq, ← leaves.text'_eq, told']

/-- The second part of a sequence starts after the spacing that follows the first. -/
theorem exists_second {z : Zone} {w w' : List Char} {p q : Spot} {ts ts' : List Tree}
    (leaves : p.Leaves w w' q) (here : found a p.here = some (ts, q.here))
    (there : found a p.there = some (ts', q.there)) (taken : movesA → w ≠ [] ∧ w' ≠ [])
    (told : Tree.toldAll p.text ts = Tree.toldAll p.text' ts') (rest : R.Holds z q) :
    ∃ r : Spot, R.Holds z r ∧ r.IsSettled
      ∧ found (.seq a b) p.here = (found b r.here).map (fun (us, e) => (ts ++ us, e))
      ∧ (Alike R movesB U r (found b r.here) (found b r.there) →
          Alike R (movesA ∨ movesB) U p (found (.seq a b) p.here) (found (.seq a b) p.there)) := by
  obtain ⟨v, v', r, hr, hskip, hskip', hsettled, hrest⟩ := R.exists_skip rest
  have hhere : found (.seq a b) p.here = (found b r.here).map fun (us, e) => (ts ++ us, e) := by
    rw [found, here, ← hskip]
    rfl
  have hthere : found (.seq a b) p.there = (found b r.there).map fun (us, e) => (ts' ++ us, e) := by
    rw [found, there, ← hskip']
    rfl
  refine ⟨r, hrest, hsettled, hhere, fun halike => ?_⟩
  rw [hhere, hthere]
  exact alike_after (leaves.trans hr) (fun hm => by simp [taken hm]) told halike

/-- The second part of a sequence, from where the first leads. -/
theorem seq_of_leads {z : Zone} {w w' : List Char} {p q : Spot} {ts ts' : List Tree}
    (hb : Mirrored R sticks movesB T U b) (leaves : p.Leaves w w' q)
    (here : found a p.here = some (ts, q.here)) (there : found a p.there = some (ts', q.there))
    (taken : movesA → w ≠ [] ∧ w' ≠ []) (told : Tree.toldAll p.text ts = Tree.toldAll p.text' ts')
    (zone : T z) (rest : R.Holds z q) :
    Alike R (movesA ∨ movesB) U p (found (.seq a b) p.here) (found (.seq a b) p.there)
      ∨ (sticks ∧ Stuck (found (.seq a b) p.here)) := by
  obtain ⟨r, hrest, hsettled, hseq, halikes⟩ := exists_second leaves here there taken told rest
  rcases hb zone hrest hsettled with halike | ⟨hs, us, d, more, hfound, hd⟩
  · exact Or.inl (halikes halike)
  · refine Or.inr ⟨hs, ts ++ us, d, more, ?_, hd⟩
    rw [hseq, hfound]
    rfl

theorem seq (ha : Mirrored R False movesA S T a) (hb : Mirrored R sticks movesB T U b) :
    Mirrored R sticks (movesA ∨ movesB) S U (.seq a b) := by
  intro z p hz hp hsettled
  rcases ha hz hp hsettled with halike | ⟨hs, -⟩
  · cases halike with
    | fails here there => exact Or.inl (.fails (found_seq_eq_none here) (found_seq_eq_none there))
    | leads z w w' q ts ts' leaves here there taken told zone rest =>
      exact seq_of_leads hb leaves here there taken told zone rest
  · exact hs.elim

theorem seq_left (ha : Mirrored R False moves S T a) (hb : Mirrored R sticks movesB T U b) :
    Mirrored R sticks moves S U (.seq a b) :=
  (seq ha hb).mono id Or.inl

theorem seq_right (ha : Mirrored R False movesA S T a) (hb : Mirrored R sticks moves T U b) :
    Mirrored R sticks moves S U (.seq a b) :=
  (seq ha hb).mono id Or.inr

/-- A sequence whose first part may get stuck and whose second part takes no parenthesis. -/
theorem seq_passes (ha : Mirrored R True movesA S T a) (hb : Mirrored R True movesB T U b)
    (hpasses : Passes b) : Mirrored R True (movesA ∨ movesB) S U (.seq a b) := by
  intro z p hz hp hsettled
  rcases ha hz hp hsettled with halike | ⟨hs, ts, d, more, hfound, hd⟩
  · cases halike with
    | fails here there => exact Or.inl (.fails (found_seq_eq_none here) (found_seq_eq_none there))
    | leads z w w' q ts ts' leaves here there taken told zone rest =>
      exact seq_of_leads hb leaves here there taken told zone rest
  -- The second part takes nothing, so the parenthesis still stands next.
  · obtain ⟨us, hus⟩ := hpasses hd
    refine Or.inr ⟨hs, ts ++ us, d.skip, more, ?_, by rw [Cursor.skip_skip, hd]⟩
    rw [found, hfound]
    simp only [Option.bind_some, hus, Option.map_some]

/-! ## Repetitions -/

/-- Rounds that follow a match, from where it leads. -/
theorem alike_rounds {n k : Nat} {w w' : List Char} {p q : Spot} {ts ts' : List Tree}
    (leaves : p.Leaves w w' q) (told : Tree.toldAll p.text ts = Tree.toldAll p.text' ts')
    (h : Alike R False S q (some (rounds (found e) n q.here)) (some (rounds (found e) k q.there))
      ∨ (sticks ∧ Stuck (some (rounds (found e) n q.here)))) :
    Alike R False S p
        (some (ts ++ (rounds (found e) n q.here).1, (rounds (found e) n q.here).2))
        (some (ts' ++ (rounds (found e) k q.there).1, (rounds (found e) k q.there).2))
      ∨ (sticks ∧ Stuck (some (ts ++ (rounds (found e) n q.here).1, (rounds (found e) n q.here).2))) := by
  rcases h with halike | ⟨hs, us, d, more, hfound, hd⟩
  · have hafter := alike_after leaves (False.elim : False → _) told halike
    rw [or_self] at hafter
    exact Or.inl hafter
  · rw [Option.some.injEq] at hfound
    exact Or.inr ⟨hs, ts ++ us, d, more, by rw [hfound], hd⟩

/-- A repetition that is stuck ends, as the next round would have to take the parenthesis. -/
theorem rounds_of_balks {n : Nat} {d : Cursor} {more : List Char} (hbalks : Balks e)
    (hd : d.skip.rest = '(' :: more) : rounds (found e) n d = ([], d) := by
  cases n with
  | zero => rfl
  | succ n => rw [rounds, hbalks hd]

theorem rounds_alike (h : Mirrored R sticks True S S e) (hbalks : sticks → Balks e) (n k : Nat)
    {z : Zone} {p : Spot} (hz : S z) (hp : R.Holds z p) (hn : p.cs.length < n)
    (hk : p.cs'.length < k) :
    Alike R False S p (some (rounds (found e) n p.here)) (some (rounds (found e) k p.there))
      ∨ (sticks ∧ Stuck (some (rounds (found e) n p.here))) := by
  -- Each run has a round for every character that is left of its own text. The texts differ in
  -- length, so the two numbers of rounds do; each match takes a character off both.
  induction n generalizing k z p with
  | zero => exact absurd hn (Nat.not_lt_zero _)
  | succ n ih =>
    obtain ⟨k, rfl⟩ : ∃ m, k = m + 1 := ⟨k - 1, by omega⟩
    obtain ⟨v, v', q, hq, hskip, hskip', hsettled, hrest⟩ := R.exists_skip hp
    rw [rounds, rounds, hskip, hskip']
    rcases h hz hrest hsettled with halike | ⟨hs, ts, d, more, hfound, hd⟩
    · cases halike with
      | fails here there =>
        rw [here, there]
        exact Or.inl (.leads z [] [] p [] [] (.refl p) rfl rfl False.elim rfl hz hp)
      | leads z' w w' r ts ts' leaves here there taken told zone rest =>
        rw [here, there]
        have hpr := hq.trans leaves
        have hlen := congrArg List.length hpr.cs
        have hlen' := congrArg List.length hpr.cs'
        obtain ⟨hw, hw'⟩ := taken trivial
        have hwlen := List.length_pos_iff.2 hw
        have hwlen' := List.length_pos_iff.2 hw'
        simp only [List.length_append] at hlen hlen'
        rw [hq.text_eq, hq.text'_eq] at told
        exact alike_rounds hpr told (ih k zone rest (by omega) (by omega))
    · refine Or.inr ⟨hs, ts, d, more, ?_, hd⟩
      rw [hfound]
      simp [rounds_of_balks (hbalks hs) hd]

theorem many (h : Mirrored R sticks True S S e) (hbalks : sticks → Balks e) :
    Mirrored R sticks False S S (.many e) := by
  intro z p hz hp hsettled
  rcases h hz hp hsettled with halike | ⟨hs, ts, d, more, hfound, hd⟩
  · cases halike with
    | fails here there =>
      refine Or.inl (.leads z [] [] p [] [] (.refl p) ?_ ?_ False.elim rfl hz hp)
      · rw [found, here]
      · rw [found, there]
    | leads z' w w' q ts ts' leaves here there taken told zone rest =>
      rw [found, found, here, there]
      have hlen : q.cs.length < q.here.rest.length + 1 := by simp [Spot.here, Cursor.place]
      have hlen' : q.cs'.length < q.there.rest.length + 1 := by simp [Spot.there, Cursor.place]
      exact alike_rounds leaves told (rounds_alike h hbalks _ _ zone rest hlen hlen')
  · refine Or.inr ⟨hs, ts, d, more, ?_, hd⟩
    rw [found, hfound]
    simp [rounds_of_balks (hbalks hs) hd]

end Mirrored

/-! ## One way only -/

/-- A match in the first of two texts that differ in their spacing alone has its like in the
second. -/
def Carried (R : Pairing) (S T : Zone → Prop) (e : Expr) : Prop :=
  ∀ ⦃z : Zone⦄ ⦃p : Spot⦄, S z → R.Holds z p → p.IsSettled →
    found e p.here = none ∨ Alike R False T p (found e p.here) (found e p.there)

theorem Mirrored.carried {e : Expr} {moves : Prop} {S T : Zone → Prop}
    (h : Mirrored R False moves S T e) : Carried R S T e := by
  intro z p hz hp hsettled
  rcases (h.mono id False.elim : Mirrored R False False S T e) hz hp hsettled with halike | ⟨hs, -⟩
  · exact Or.inr halike
  · exact hs.elim

namespace Carried

variable {a b : Expr} {moves movesA movesB : Prop} {S T U : Zone → Prop}

theorem of_leads {z : Zone} {w w' : List Char} {p q : Spot} {ts ts' : List Tree}
    (hb : Carried R T U b) (leaves : p.Leaves w w' q) (here : found a p.here = some (ts, q.here))
    (there : found a p.there = some (ts', q.there))
    (told : Tree.toldAll p.text ts = Tree.toldAll p.text' ts') (zone : T z)
    (rest : R.Holds z q) :
    found (.seq a b) p.here = none
      ∨ Alike R False U p (found (.seq a b) p.here) (found (.seq a b) p.there) := by
  obtain ⟨r, hrest, hsettled, hseq, halikes⟩ :=
    Mirrored.exists_second leaves here there False.elim told rest
  rcases hb zone hrest hsettled with hnone | halike
  · refine Or.inl ?_
    rw [hseq, hnone]
    rfl
  · exact Or.inr (by simpa using halikes halike)

theorem seq (ha : Mirrored R False moves S T a) (hb : Carried R T U b) : Carried R S U (.seq a b) := by
  intro z p hz hp hsettled
  rcases ha hz hp hsettled with halike | ⟨hs, -⟩
  · cases halike with
    | fails here there => exact Or.inl (found_seq_eq_none here)
    | leads z w w' q ts ts' leaves here there taken told zone rest =>
      exact of_leads hb leaves here there told zone rest
  · exact hs.elim

/-- Where nothing takes a parenthesis next, a match that is stuck does not go on. -/
theorem seq_balks (ha : Mirrored R True movesA S T a) (hb : Mirrored R False movesB T U b)
    (hbalks : Balks b) : Carried R S U (.seq a b) := by
  intro z p hz hp hsettled
  rcases ha hz hp hsettled with halike | ⟨-, ts, d, more, hfound, hd⟩
  · cases halike with
    | fails here there => exact Or.inl (found_seq_eq_none here)
    | leads z w w' q ts ts' leaves here there taken told zone rest =>
      exact of_leads hb.carried leaves here there told zone rest
  · refine Or.inl ?_
    rw [found, hfound]
    simp only [Option.bind_some, hbalks hd, Option.map_none]

/-- At the start of both texts. -/
theorem start {z : Zone} {p : Spot} {r : Rule} (hb : Carried R S U b) (hr : r.isTold = false)
    (hbefore : p.before = []) (hbefore' : p.before' = []) (hz : S z) (hp : R.Holds z p) :
    found (.phrase r (.seq .start b)) p.here = none
      ∨ Alike R False U p (found (.phrase r (.seq .start b)) p.here)
          (found (.phrase r (.seq .start b)) p.there) := by
  have hhere : found .start p.here = some ([], p.here) := by
    simp [found, Spot.here, Cursor.place, hbefore, width]
  have hthere : found .start p.there = some ([], p.there) := by
    simp [found, Spot.there, Cursor.place, hbefore', width]
  rcases of_leads hb (.refl p) hhere hthere rfl hz hp with hnone | halike
  · exact Or.inl (found_phrase_eq_none hnone)
  · exact Or.inr (Mirrored.alike_phrase hr halike)

end Carried

end Expr

end GoScaffold.Grammar
