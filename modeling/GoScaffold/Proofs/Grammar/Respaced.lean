import GoScaffold.Proofs.Grammar.Token

set_option autoImplicit false

/-! # Texts that differ in their spacing

Two texts may differ only in the white space and the comments between their tokens
(`Respaced`). What is not spacing is the same in both, character by character: quoted texts as a
whole, everything else one character at a time. Spacing never comes or goes between two words; it may
go before a mark that ends a word by itself. Inside parentheses within the list of columns, where
expressions are read without regard to tokens, the spacing is the same too. -/

namespace GoScaffold.Grammar

open Text

/-! ## The relation -/

/-- Where a text stands among the parentheses of a declaration. -/
inductive Zone
  /-- Before the list of columns. -/
  | head
  /-- In the list of columns or after it. -/
  | body
  /-- Inside further parentheses, of which this many more are open. -/
  | inner (depth : Nat)
  deriving DecidableEq, Repr

namespace Zone

/-- After an opening parenthesis. -/
def opened : Zone → Zone
  | .head => .body
  | .body => .inner 0
  | .inner depth => .inner (depth + 1)

/-- After a closing parenthesis. -/
def closed : Zone → Zone
  | .head => .head
  | .body => .body
  | .inner 0 => .body
  | .inner (depth + 1) => .inner depth

/-- After one more character outside quotes and comments. -/
def next (z : Zone) (c : Char) : Zone :=
  if c = '(' then z.opened else if c = ')' then z.closed else z

/-- Whether further parentheses are open. -/
def IsInner : Zone → Prop
  | .inner _ => True
  | _ => False

/-- Whether the list of columns has begun. -/
def Entered (z : Zone) : Prop := z ≠ .head

theorem next_of_ne {z : Zone} {c : Char} (hopen : c ≠ '(') (hclose : c ≠ ')') : z.next c = z := by
  rw [next, if_neg hopen, if_neg hclose]

theorem entered_opened (z : Zone) : z.opened.Entered := by
  cases z <;> simp [opened, Entered]

theorem Entered.next {z : Zone} (h : z.Entered) (c : Char) : (z.next c).Entered := by
  rw [Zone.next]
  split
  · exact entered_opened z
  · split
    · match z, h with
      | .body, _ => simp [closed, Entered]
      | .inner 0, _ => simp [closed, Entered]
      | .inner (depth + 1), _ => simp [closed, Entered]
    · exact h

end Zone

/-- White space and comments, all that there are before `rest`. -/
def Spacing (gap rest : List Char) : Prop :=
  Scan.blanks (raise (gap ++ rest)) = (raise gap, raise rest)

instance (gap rest : List Char) : Decidable (Spacing gap rest) :=
  inferInstanceAs (Decidable (_ = _))

/-- The marks that end a word without any spacing. -/
def partingMarks : List Char := ['(', ')', ',', ';', '=']

/-- The quotes of names and strings. -/
def isQuote (c : Char) : Bool := c == '`' || c == '\'' || c == '"'

/-- What a bit string has after its letter. -/
def Scan.bitEnd : Scan := all [word ['\''], run (· != '\''), word ['\'']]

/-- The texts differ in their spacing alone; both stand at the same place among parentheses. -/
inductive Respaced : Zone → List Char → List Char → Prop
  | stop {z : Zone} : Respaced z [] []
  /-- A character outside quotes. A letter that may begin a bit string does so only where the
  string after it is a bit string. -/
  | char {z : Zone} {c : Char} {cs cs' : List Char} (plain : isQuote c = false)
    (here : Settled (c :: cs)) (there : Settled (c :: cs'))
    (bits : c.toUpper = 'B' ∨ c.toUpper = 'X' → cs.head? = some '\'' →
      Scan.bitEnd (raise cs) = Scan.stringLiteral (raise cs))
    (rest : Respaced (z.next c) cs cs') : Respaced z (c :: cs) (c :: cs')
  /-- A name in backticks; within further parentheses it holds no parenthesis and no quote. -/
  | name {z : Zone} {lexeme cs cs' : List Char}
    (here : Scan.quotedIdent (raise (lexeme ++ cs)) = some (raise lexeme, raise cs))
    (there : Scan.quotedIdent (raise (lexeme ++ cs')) = some (raise lexeme, raise cs'))
    (quiet : z.IsInner → ∀ c ∈ lexeme, c ∉ ['(', ')', '\'', '"'])
    (rest : Respaced z cs cs') : Respaced z (lexeme ++ cs) (lexeme ++ cs')
  | string {z : Zone} {lexeme cs cs' : List Char}
    (here : Scan.stringLiteral (raise (lexeme ++ cs)) = some (raise lexeme, raise cs))
    (there : Scan.stringLiteral (raise (lexeme ++ cs')) = some (raise lexeme, raise cs'))
    (rest : Respaced z cs cs') : Respaced z (lexeme ++ cs) (lexeme ++ cs')
  | gap {z : Zone} {gap gap' cs cs' : List Char} (held : gap ≠ [])
    (here : Spacing gap cs) (there : Spacing gap' cs')
    (parted : gap' = [] → ∀ c ∈ cs.head?, c ∈ partingMarks)
    (spaces : (∀ c ∈ gap, Scan.isSpace c = true) → gap' = gap)
    (inner : z.IsInner → ∀ c ∈ gap, Scan.isSpace c = true)
    (rest : Respaced z cs cs') : Respaced z (gap ++ cs) (gap' ++ cs')

/-! ## Spacing -/

theorem Spacing.settled {gap rest : List Char} (h : Spacing gap rest) : Settled rest := by
  have hsnd := Scan.blanksFrom_snd 0 (raise (gap ++ rest))
  rw [Spacing, Scan.blanks] at h
  rwa [h] at hsnd

theorem Spacing.skip {gap rest : List Char} (h : Spacing gap rest) (before : List Char) :
    (Cursor.place before (gap ++ rest)).skip = Cursor.place (before ++ gap) rest := by
  rw [Spacing] at h
  simp only [Cursor.skip, Cursor.place, h, width_raise, width_append]

theorem Spacing.tail {c : Char} {gap rest : List Char} (h : Spacing (c :: gap) rest)
    (hc : Scan.isSpace c = true) : Spacing gap rest := by
  have hblanks := Scan.blanks_of_isSpace (raise (gap ++ rest)) (c := c.toUpper) (by simpa using hc)
  have hcons : Scan.blanks (c.toUpper :: raise (gap ++ rest)) = (c.toUpper :: raise gap, raise rest) := h
  rw [hblanks, Prod.mk.injEq, List.cons.injEq] at hcons
  exact Prod.ext hcons.1.2 hcons.2

/-- Spacing begins with white space or with the opening of a comment. -/
theorem Spacing.head {c : Char} {gap rest : List Char} (h : Spacing (c :: gap) rest) :
    Scan.isSpace c = true ∨ c ∈ ['#', '-', '/'] := by
  by_cases hspace : Scan.isSpace c = true
  · exact Or.inl hspace
  · by_cases hmark : c ∈ ['#', '-', '/']
    · exact Or.inr hmark
    · have hsettled := settled_cons (gap ++ rest) (by simpa using hspace) (by simpa using hmark)
      rw [Settled, ← List.cons_append] at hsettled
      rw [Spacing, hsettled] at h
      simp at h

/-! ## Lexemes -/

namespace Scan

theorem chain_eq_some {a b : Scan} {cs w r : List Char} :
    chain a b cs = some (w, r) ↔ ∃ u m v, a cs = some (u, m) ∧ b m = some (v, r) ∧ w = u ++ v := by
  unfold chain
  cases a cs with
  | none => simp
  | some found =>
    obtain ⟨u, m⟩ := found
    simp only [Option.map_eq_some_iff, Prod.mk.injEq, Option.some.injEq, Prod.exists]
    constructor
    · rintro ⟨v, more, hv, rfl, rfl⟩
      exact ⟨u, m, v, ⟨rfl, rfl⟩, hv, rfl⟩
    · rintro ⟨u', m', v, ⟨rfl, rfl⟩, hv, rfl⟩
      exact ⟨v, r, hv, rfl, rfl⟩

theorem quotedIdent_cons {cs w r : List Char} (h : quotedIdent cs = some (w, r)) :
    ∃ v, w = '`' :: v := by
  obtain ⟨u, m, v, hu, -, rfl⟩ := chain_eq_some.1 h
  rw [(word_eq_some.1 hu).1]
  exact ⟨v, rfl⟩

theorem stringLiteral_cons {cs w r : List Char} (h : stringLiteral cs = some (w, r)) :
    ∃ q v, w = q :: v ∧ (q = '\'' ∨ q = '"') := by
  rw [stringLiteral, either, Option.or_eq_some_iff] at h
  rcases h with h | ⟨-, h⟩
  · obtain ⟨u, m, v, hu, -, rfl⟩ := chain_eq_some.1 h
    rw [(word_eq_some.1 hu).1]
    exact ⟨'\'', v, rfl, Or.inl rfl⟩
  · obtain ⟨u, m, v, hu, -, rfl⟩ := chain_eq_some.1 h
    rw [(word_eq_some.1 hu).1]
    exact ⟨'"', v, rfl, Or.inr rfl⟩

end Scan

theorem Spacing.eq_nil {gap rest : List Char} (h : Spacing gap rest) (hsettled : Settled (gap ++ rest)) :
    gap = [] := by
  rw [Settled, h, Prod.mk.injEq] at hsettled
  simpa [raise] using hsettled.1

/-- Of the openings of comments only `-- ` begins with a dash. -/
theorem Spacing.dash {gap rest : List Char} (h : Spacing ('-' :: gap) rest) :
    ∃ more, raise (gap ++ rest) = '-' :: ' ' :: more := by
  have hraise : raise ('-' :: gap ++ rest) = '-' :: raise (gap ++ rest) := rfl
  cases hcomment : Scan.comment ('-' :: raise (gap ++ rest)) with
  | none =>
    have hsettled : Settled ('-' :: gap ++ rest) := by
      rw [Settled, hraise, Scan.blanks, Scan.blanksFrom, if_neg (by decide), hcomment]
    exact absurd (h.eq_nil hsettled) (List.cons_ne_nil _ _)
  | some found =>
    obtain ⟨w, r⟩ := found
    have hblock : Scan.chain (Scan.word ['/', '*']) Scan.blockEnd ('-' :: raise (gap ++ rest))
        = none := by
      simp [Scan.chain, Scan.word, List.isPrefixOf?]
    have hsharp : Scan.word ['#'] ('-' :: raise (gap ++ rest)) = none := by
      simp [Scan.word, List.isPrefixOf?]
    rw [Scan.comment, Scan.first, Scan.either, hblock, Option.none_or, Scan.first, Scan.either,
      Option.or_eq_some_iff] at hcomment
    rcases hcomment with hline | ⟨-, hnone⟩
    · obtain ⟨u, m, v, hu, -, -⟩ := Scan.chain_eq_some.1 hline
      rw [Scan.either, hsharp, Option.none_or] at hu
      have hword := (Scan.word_eq_some.1 hu).2
      exact ⟨m, List.cons.inj hword |>.2⟩
    · exact absurd hnone (by simp [Scan.first])

theorem Spacing.head?_ne {gap rest : List Char} (h : Spacing gap rest) (hgap : gap ≠ []) {q : Char}
    (hspace : Scan.isSpace q = false) (hmark : q ∉ ['#', '-', '/']) :
    (gap ++ rest).head? ≠ some q := by
  obtain ⟨c, gap, rfl⟩ := List.exists_cons_of_ne_nil hgap
  rintro ⟨⟩
  rcases h.head with hc | hc
  · exact absurd hc (by simp [hspace])
  · exact hmark hc

theorem exists_of_raise_eq_cons {cs ds : List Char} {d : Char} (hd : d.isAlpha = false)
    (h : raise cs = d :: ds) : ∃ more, cs = d :: more := by
  cases cs with
  | nil => simp at h
  | cons c cs =>
    rw [raise_cons, List.cons.injEq, toUpper_eq_iff hd] at h
    exact ⟨cs, by rw [h.1]⟩

theorem Scan.quotedIdent_lexeme {lexeme cs r : List Char}
    (h : quotedIdent (raise (lexeme ++ cs)) = some (raise lexeme, r)) :
    ∃ more, lexeme = '`' :: more := by
  obtain ⟨v, hv⟩ := quotedIdent_cons h
  exact exists_of_raise_eq_cons rfl hv

theorem Scan.stringLiteral_lexeme {lexeme cs r : List Char}
    (h : stringLiteral (raise (lexeme ++ cs)) = some (raise lexeme, r)) :
    ∃ q more, lexeme = q :: more ∧ (q = '\'' ∨ q = '"') := by
  obtain ⟨q, v, hv, hq⟩ := stringLiteral_cons h
  have hletter : q.isAlpha = false := by
    rcases hq with rfl | rfl <;> rfl
  obtain ⟨more, rfl⟩ := exists_of_raise_eq_cons hletter hv
  exact ⟨q, more, rfl, hq⟩

/-! ## What stands first -/

/-- The characters of words and numbers. -/
def isInked (c : Char) : Bool := Scan.isIdentChar c || c == '.'

@[simp] theorem isInked_toUpper (c : Char) : isInked c.toUpper = isInked c := by
  rw [Bool.eq_iff_iff]
  simp only [isInked, Scan.isIdentChar_toUpper, Bool.or_eq_true, beq_iff_eq,
    toUpper_eq_iff (d := '.') rfl]

/-- No character of a word or number stands first. -/
def Uninked (cs : List Char) : Prop := ∀ c ∈ cs.head?, isInked c = false

theorem uninked_of_mem {c : Char} (cs : List Char) (l : List Char) (hc : c ∈ l)
    (hl : ∀ d ∈ l, isInked d = false) : Uninked (c :: cs) := by
  intro d hd
  obtain rfl : c = d := by simpa using hd
  exact hl c hc

/-- No character outside quotes and spacing stands first, but for marks before which spacing may be
gone. -/
inductive Broken : List Char → Prop
  | stop : Broken []
  | quote {q : Char} (cs : List Char) (h : isQuote q = true) : Broken (q :: cs)
  | spacing {gap rest : List Char} (held : gap ≠ []) (h : Spacing gap rest) : Broken (gap ++ rest)
  | mark {c : Char} (cs : List Char) (h : c ∈ partingMarks) : Broken (c :: cs)

theorem Broken.uninked {cs : List Char} (h : Broken cs) : Uninked cs := by
  cases h with
  | stop => simp [Uninked]
  | @quote q cs h =>
    refine uninked_of_mem cs ['`', '\'', '"'] ?_ (by decide)
    simpa [isQuote, or_assoc] using h
  | @spacing gap rest held h =>
    obtain ⟨c, gap, rfl⟩ := List.exists_cons_of_ne_nil held
    rcases h.head with hc | hc
    · have hspace : c = ' ' ∨ c = '\t' ∨ c = '\n' ∨ c = '\r' := by
        simpa [Scan.isSpace, or_assoc] using hc
      exact uninked_of_mem _ [' ', '\t', '\n', '\r'] (by simpa using hspace) (by decide)
    · exact uninked_of_mem _ _ hc (by decide)
  | mark cs h => exact uninked_of_mem cs _ h (by decide)

theorem broken_of_quotedIdent {lexeme cs r : List Char}
    (h : Scan.quotedIdent (raise (lexeme ++ cs)) = some (raise lexeme, r)) :
    Broken (lexeme ++ cs) := by
  obtain ⟨more, rfl⟩ := Scan.quotedIdent_lexeme h
  exact .quote _ rfl

theorem broken_of_stringLiteral {lexeme cs r : List Char}
    (h : Scan.stringLiteral (raise (lexeme ++ cs)) = some (raise lexeme, r)) :
    Broken (lexeme ++ cs) := by
  obtain ⟨q, more, rfl, hq⟩ := Scan.stringLiteral_lexeme h
  exact .quote _ (by rcases hq with rfl | rfl <;> rfl)

/-- After spacing that is gone a mark stands, or nothing. -/
theorem broken_of_parted {cs : List Char} (h : ∀ c ∈ cs.head?, c ∈ partingMarks) : Broken cs := by
  cases cs with
  | nil => exact .stop
  | cons c cs => exact .mark cs (h c rfl)

namespace Respaced

variable {z : Zone} {cs cs' : List Char}

/-- Spacing stands first in both texts or in neither, unless it is gone from one. -/
theorem settled_or_gap (h : Respaced z cs cs') :
    (Settled cs ∧ Settled cs')
      ∨ ∃ gap gap' ds ds', cs = gap ++ ds ∧ cs' = gap' ++ ds' ∧ gap ≠ [] ∧ Spacing gap ds
          ∧ Spacing gap' ds' ∧ ((∀ c ∈ gap, Scan.isSpace c = true) → gap' = gap)
          ∧ (z.IsInner → ∀ c ∈ gap, Scan.isSpace c = true) ∧ Respaced z ds ds' := by
  cases h with
  | stop => exact Or.inl ⟨settled_nil, settled_nil⟩
  | char plain here there bits rest => exact Or.inl ⟨here, there⟩
  | name here there quiet rest =>
    obtain ⟨more, rfl⟩ := Scan.quotedIdent_lexeme here
    exact Or.inl ⟨settled_cons _ rfl (by decide), settled_cons _ rfl (by decide)⟩
  | string here there rest =>
    obtain ⟨q, more, rfl, hq⟩ := Scan.stringLiteral_lexeme here
    rcases hq with rfl | rfl <;>
      exact Or.inl ⟨settled_cons _ rfl (by decide), settled_cons _ rfl (by decide)⟩
  | gap held here there parted spaces inner rest =>
    exact Or.inr ⟨_, _, _, _, rfl, rfl, held, here, there, spaces, inner, rest⟩

/-- Where no spacing stands first, both texts begin alike. -/
theorem head?_eq (h : Respaced z cs cs') (hcs : Settled cs) : cs.head? = cs'.head? := by
  cases h with
  | stop => rfl
  | char plain here there bits rest => rfl
  | name here there quiet rest =>
    obtain ⟨more, rfl⟩ := Scan.quotedIdent_lexeme here
    rfl
  | string here there rest =>
    obtain ⟨q, more, rfl, -⟩ := Scan.stringLiteral_lexeme here
    rfl
  | gap held here there parted spaces inner rest => exact absurd (here.eq_nil hcs) held

/-- A character outside quotes that stands first stands first in both. -/
theorem cons_of_head? (h : Respaced z cs cs') (hcs : Settled cs) {c : Char} (hc : cs.head? = some c)
    (hquote : isQuote c = false) :
    ∃ ds ds', cs = c :: ds ∧ cs' = c :: ds' ∧ Respaced (z.next c) ds ds' := by
  cases h with
  | stop => exact absurd hc (by simp)
  | char plain here there bits rest =>
    obtain rfl := Option.some.inj hc
    exact ⟨_, _, rfl, rfl, rest⟩
  | name here there quiet rest =>
    obtain ⟨more, rfl⟩ := Scan.quotedIdent_lexeme here
    obtain rfl := Option.some.inj hc
    exact absurd hquote (by decide)
  | string here there rest =>
    obtain ⟨q, more, rfl, hq⟩ := Scan.stringLiteral_lexeme here
    obtain rfl := Option.some.inj hc
    rcases hq with rfl | rfl <;> exact absurd hquote (by decide)
  | gap held here there parted spaces inner rest => exact absurd (here.eq_nil hcs) held

/-- Either the same character outside quotes and spacing stands first in both, or none in either. -/
theorem split (h : Respaced z cs cs') :
    (∃ c ds ds', cs = c :: ds ∧ cs' = c :: ds' ∧ isQuote c = false
        ∧ Respaced (z.next c) ds ds')
      ∨ (Broken cs ∧ Broken cs') := by
  cases h with
  | stop => exact Or.inr ⟨.stop, .stop⟩
  | char plain here there bits rest => exact Or.inl ⟨_, _, _, rfl, rfl, plain, rest⟩
  | name here there quiet rest =>
    exact Or.inr ⟨broken_of_quotedIdent here, broken_of_quotedIdent there⟩
  | string here there rest =>
    exact Or.inr ⟨broken_of_stringLiteral here, broken_of_stringLiteral there⟩
  | @gap _ gap gap' ds ds' held here there parted spaces inner rest =>
    refine Or.inr ⟨.spacing held here, ?_⟩
    by_cases hgap : gap' = []
    · rw [hgap, List.nil_append]
      exact broken_of_parted fun c hc => parted hgap c (rest.head?_eq here.settled ▸ hc)
    · exact .spacing hgap there

/-- Either the same character of a word or number stands first in both, or none in either. -/
theorem head (h : Respaced z cs cs') :
    (∃ c ds ds', cs = c :: ds ∧ cs' = c :: ds' ∧ isInked c = true ∧ Respaced z ds ds')
      ∨ (Uninked cs ∧ Uninked cs') := by
  rcases h.split with ⟨c, ds, ds', rfl, rfl, -, rest⟩ | ⟨here, there⟩
  · cases hc : isInked c with
    | true =>
      have hne : c ≠ '(' ∧ c ≠ ')' := by
        constructor <;> rintro rfl <;> exact absurd hc (by decide)
      rw [Zone.next_of_ne hne.1 hne.2] at rest
      exact Or.inl ⟨c, ds, ds', rfl, rfl, hc, rest⟩
    | false => exact Or.inr ⟨by simp [Uninked, hc], by simp [Uninked, hc]⟩
  · exact Or.inr ⟨here.uninked, there.uninked⟩

/-- A word before no quote is the same in both texts. -/
theorem word {w : List Char} (h : Respaced z cs cs') (hw : ∀ c ∈ w, isInked c = true)
    (hquote : cs.head? ≠ some '\'') : Respaced z (w ++ cs) (w ++ cs') := by
  induction w with
  | nil => exact h
  | cons c w ih =>
    obtain ⟨hc, hw⟩ := List.forall_mem_cons.1 hw
    have hne {d : Char} (hd : isInked d = false) : c ≠ d := by
      rintro rfl
      exact absurd hc (by simp [hd])
    have hplain : isQuote c = false := by
      simp [isQuote, hne (d := '`') rfl, hne (d := '\'') rfl, hne (d := '"') rfl]
    have hspace : Scan.isSpace c = false := by
      simp [Scan.isSpace, hne (d := ' ') rfl, hne (d := '\t') rfl, hne (d := '\n') rfl,
        hne (d := '\r') rfl]
    have hmark : c ≠ '#' ∧ c ≠ '-' ∧ c ≠ '/' := ⟨hne rfl, hne rfl, hne rfl⟩
    have hnext : (w ++ cs).head? ≠ some '\'' := by
      cases w with
      | nil => exact hquote
      | cons d w =>
        rintro ⟨⟩
        exact absurd (hw _ (List.mem_cons_self ..)) (by decide)
    refine .char hplain (settled_cons _ hspace hmark) (settled_cons _ hspace hmark)
      (fun _ hq => absurd hq hnext) ?_
    rw [Zone.next_of_ne (hne rfl) (hne rfl)]
    exact ih hw

/-- White space is the same in both texts wherever it may stand. -/
theorem blank {c : Char} (h : Respaced z cs cs') (hc : Scan.isSpace c = true) (here : Settled cs)
    (there : Settled cs') : Respaced z (c :: cs) (c :: cs') := by
  have hspacing {ds : List Char} (hds : Settled ds) : Spacing [c] ds := by
    have hblanks := Scan.blanks_of_isSpace (raise ds) (c := c.toUpper) (by simpa using hc)
    rw [Settled] at hds
    rw [Spacing, List.singleton_append, raise_cons, hblanks, hds]
    rfl
  exact .gap (List.cons_ne_nil c []) (hspacing here) (hspacing there) (by simp) (fun _ => rfl)
    (fun _ => by simpa using hc) h

/-! ## What is kept -/

/-- Nothing but white space is taken off the front of a text without the openings of comments. -/
theorem exists_of_spacing {gap ds w rest : List Char} (h : Spacing gap ds)
    (heq : gap ++ ds = w ++ rest) (hne : w ≠ []) (hmarks : ∀ c ∈ w, c ∉ ['#', '-', '/'])
    (hlast : ∀ c ∈ w.getLast?, Scan.isSpace c = false) :
    (∀ c ∈ gap, Scan.isSpace c = true) ∧ ∃ v, w = gap ++ v ∧ ds = v ++ rest := by
  induction gap generalizing w with
  | nil => exact ⟨by simp, w, rfl, heq⟩
  | cons g gap ih =>
    obtain ⟨c, w, rfl⟩ := List.exists_cons_of_ne_nil hne
    obtain ⟨rfl, hrest⟩ := List.cons.inj heq
    have hspace : Scan.isSpace g = true := by
      rcases h.head with hg | hg
      · exact hg
      · exact absurd hg (hmarks g (List.mem_cons_self ..))
    -- White space does not end `w`, so something of `w` is left.
    have hw : w ≠ [] := by
      rintro rfl
      exact absurd hspace (by simp [hlast g rfl])
    obtain ⟨d, more, rfl⟩ := List.exists_cons_of_ne_nil hw
    obtain ⟨hgap, v, hdv, hds⟩ := ih (h.tail hspace) hrest hw
      (fun c hc => hmarks c (List.mem_cons_of_mem _ hc)) (by simpa using hlast)
    exact ⟨List.forall_mem_cons.2 ⟨hspace, hgap⟩, v, by rw [hdv]; rfl, hds⟩

/-- What has no quote, no parenthesis and no opening of a comment, and does not end in white space,
is the same in both texts. -/
theorem verbatim {w rest : List Char} (h : Respaced z cs cs') (heq : cs = w ++ rest)
    (hplain : ∀ c ∈ w, c ∉ ['#', '-', '/', '(', ')'] ∧ isQuote c = false)
    (hlast : ∀ c ∈ w.getLast?, Scan.isSpace c = false) :
    ∃ rest', cs' = w ++ rest' ∧ Respaced z rest rest' := by
  -- By the length of `w`, as spacing takes several characters of it at once.
  induction hlen : w.length using Nat.strongRecOn generalizing w z cs cs' with
  | ind n ih =>
    cases w with
    | nil =>
      rw [List.nil_append] at heq
      exact ⟨cs', rfl, heq ▸ h⟩
    | cons d w =>
      obtain ⟨⟨hmark, hquote⟩, hw⟩ := List.forall_mem_cons.1 hplain
      cases h with
      | stop => exact absurd heq (by simp)
      | char plain here there bits hrest =>
        obtain ⟨rfl, hcs⟩ := List.cons.inj heq
        rw [Zone.next_of_ne (by rintro rfl; simp at hmark) (by rintro rfl; simp at hmark)] at hrest
        have hlast' : ∀ e ∈ w.getLast?, Scan.isSpace e = false := by
          cases w with
          | nil => simp
          | cons e w => simpa using hlast
        obtain ⟨rest', rfl, hrest'⟩ := ih _ (by simp [← hlen]) hrest hcs hw hlast' rfl
        exact ⟨rest', rfl, hrest'⟩
      | name here there quiet hrest =>
        obtain ⟨more, rfl⟩ := Scan.quotedIdent_lexeme here
        obtain rfl := (List.cons.inj heq).1
        exact absurd hquote (by decide)
      | string here there hrest =>
        obtain ⟨q, more, rfl, hq⟩ := Scan.stringLiteral_lexeme here
        obtain rfl := (List.cons.inj heq).1
        rcases hq with rfl | rfl <;> exact absurd hquote (by decide)
      | @gap _ gap gap' ds ds' held here there parted spaces inner hrest =>
        have hmarks : ∀ c ∈ d :: w, c ∉ ['#', '-', '/'] :=
          fun c hc hmem => (hplain c hc).1 (List.mem_append_left ['(', ')'] hmem)
        obtain ⟨hspaces, v, hgap, hds⟩ :=
          exists_of_spacing here heq (List.cons_ne_nil _ _) hmarks hlast
        have hgaplen := List.length_pos_iff.2 held
        have hvlen : v.length < n := by
          have := congrArg List.length hgap
          rw [List.length_append, hlen] at this
          omega
        have hvplain : ∀ c ∈ v, c ∉ ['#', '-', '/', '(', ')'] ∧ isQuote c = false :=
          fun c hc => hplain c (by rw [hgap]; exact List.mem_append_right _ hc)
        have hvlast : ∀ c ∈ v.getLast?, Scan.isSpace c = false := by
          intro c hc
          refine hlast c ?_
          rw [hgap, List.getLast?_append, Option.mem_def.1 hc]
          rfl
        obtain ⟨rest', rfl, hrest'⟩ := ih _ hvlen hrest hds hvplain hvlast rfl
        exact ⟨rest', by rw [spaces hspaces, hgap, List.append_assoc], hrest'⟩

/-- What ends a word in one text ends it in the other. -/
theorem wordEnds (h : Respaced z cs cs') (hcs : ∀ c ∈ cs.head?, isWordChar c = false) :
    ∀ c ∈ cs'.head?, isWordChar c = false := by
  rcases h.split with ⟨d, ds, ds', rfl, rfl, -, -⟩ | ⟨-, there⟩
  · exact hcs
  · intro c hc
    have hinked := there.uninked c hc
    simp only [isInked, Scan.isIdentChar, Bool.or_eq_false_iff] at hinked
    simp [isWordChar, hinked.1.1]

end Respaced

end GoScaffold.Grammar
