import GoScaffold.Proofs.Grammar.Cuts

set_option autoImplicit false

/-! # What expressions yield

The trees of a match follow the expression: a token yields one tree over a lexeme of the text, a
phrase one tree around what its inside yields, a sequence the trees of its members in order.
`Expr.Yields` says this apart from where the match stands and from what was tried in vain, and
`Expr.yields_of_found` that every match obeys it.

What a tree holds can then be read off the grammar: a tree among those that an expression yields is
yielded by a part of the expression under the same rule (`Expr.yields_of_mem`), and where only one
member of a sequence has parts under a rule, just one tree has it (`Expr.HoldsOne`). Where it matters
which bytes a tree takes, it is followed down from match to match instead (`Expr.IsMatch`). -/

namespace GoScaffold.Grammar

open Text

/-- The span takes a lexeme of the scanner off the text. -/
def IsLexeme (text : List Char) (s : Scan) (span : Span) : Prop :=
  ∃ before lexeme after, text = before ++ (lexeme ++ after)
    ∧ s (lexeme ++ after) = some (lexeme, after)
    ∧ span = ⟨width before, width before + width lexeme⟩

theorem IsLexeme.slice {text : List Char} {s : Scan} {span : Span} (h : IsLexeme text s span) :
    ∃ after, s (span.slice text ++ after) = some (span.slice text, after) := by
  obtain ⟨before, lexeme, after, rfl, hs, rfl⟩ := h
  exact ⟨after, by rw [Span.slice_part, hs]⟩

/-- The cursor stands at a place of the text. -/
def Cursor.IsIn (text : List Char) (c : Cursor) : Prop :=
  ∃ before, text = before ++ c.rest ∧ c.offset = width before

namespace Cursor.IsIn

variable {text : List Char} {c d : Cursor}

theorem skip (h : c.IsIn text) : c.skip.IsIn text := by
  obtain ⟨before, rfl, hoffset⟩ := h
  have hblanks := Scan.blanksFrom_append 0 c.rest
  refine ⟨before ++ (Scan.blanks c.rest).1, ?_, ?_⟩
  · rw [List.append_assoc]
    exact congrArg (before ++ ·) hblanks.symm
  · rw [width_append, ← hoffset]
    rfl

/-- A scanner leads from place to place, and what it takes is a lexeme. -/
theorem advance {s : Scan} (hs : s.Cuts) (h : c.IsIn text) (hd : c.advance? s = some d) :
    d.IsIn text ∧ IsLexeme text s ⟨c.offset, d.offset⟩ := by
  obtain ⟨⟨lexeme, rest⟩, hscan, rfl⟩ := Option.map_eq_some_iff.1 hd
  obtain ⟨before, rfl, hoffset⟩ := h
  have hcut := hs c.rest lexeme rest hscan
  refine ⟨⟨before ++ lexeme, by simp [hcut], by simp [hoffset]⟩, before, lexeme, rest, by rw [hcut],
    by rw [← hcut, hscan], by rw [hoffset]⟩

end Cursor.IsIn

theorem Tree.mem_children_of_child? {t u : Tree} {r : Rule} (h : t.child? r = some u) :
    u ∈ t.children ∧ u.rule = r :=
  ⟨List.mem_of_find?_eq_some h, by simpa using List.find?_some h⟩

namespace Expr

/-- Every scanner in the expression cuts texts. -/
def Cuts : Expr → Prop
  | .start => True
  | .silent s | .token _ s => s.Cuts
  | .phrase _ e | .opt e | .many e | .never e => e.Cuts
  | .seq a b | .alt a b => a.Cuts ∧ b.Cuts

section

variable {a b e : Expr} {r : Rule}

@[simp] theorem cuts_start : Expr.start.Cuts := trivial

@[simp] theorem cuts_phrase : (Expr.phrase r e).Cuts ↔ e.Cuts := Iff.rfl

@[simp] theorem cuts_seq : (Expr.seq a b).Cuts ↔ a.Cuts ∧ b.Cuts := Iff.rfl

@[simp] theorem cuts_alt : (Expr.alt a b).Cuts ↔ a.Cuts ∧ b.Cuts := Iff.rfl

@[simp] theorem cuts_opt : (Expr.opt e).Cuts ↔ e.Cuts := Iff.rfl

@[simp] theorem cuts_many : (Expr.many e).Cuts ↔ e.Cuts := Iff.rfl

@[simp] theorem cuts_never : (Expr.never e).Cuts ↔ e.Cuts := Iff.rfl

end

/-- Trees that the expression may yield in the text. -/
def Yields (text : List Char) : Expr → List Tree → Prop
  | .start, ts | .silent _, ts | .never _, ts => ts = []
  | .token r s, ts => ∃ span : Span, IsLexeme text s span ∧ ts = [.node r span.start span.stop []]
  | .phrase r e, ts => ∃ start stop us, Yields text e us ∧ ts = [.node r start stop us]
  | .seq a b, ts => ∃ us vs, Yields text a us ∧ Yields text b vs ∧ ts = us ++ vs
  | .alt a b, ts => Yields text a ts ∨ Yields text b ts
  | .opt e, ts => Yields text e ts ∨ ts = []
  | .many e, ts => ∃ rounds : List (List Tree), (∀ us ∈ rounds, Yields text e us) ∧ ts = rounds.flatten

variable {text : List Char} {a b e x : Expr} {r : Rule} {ts : List Tree} {t : Tree}

/-! ## Matches -/

/-- The rounds of a repetition yield what each round yields. -/
theorem yields_of_rounds
    (he : ∀ ⦃c d : Cursor⦄ ⦃us : List Tree⦄, c.IsIn text → found e c = some (us, d) →
      Yields text e us ∧ d.IsIn text) (n : Nat) {c : Cursor} (hc : c.IsIn text) :
    Yields text (.many e) (rounds (found e) n c).1 ∧ (rounds (found e) n c).2.IsIn text := by
  induction n generalizing c with
  | zero => exact ⟨⟨[], List.forall_mem_nil _, rfl⟩, hc⟩
  | succ n ih =>
    rw [rounds]
    cases hround : found e c.skip with
    | none => exact ⟨⟨[], List.forall_mem_nil _, rfl⟩, hc⟩
    | some round =>
      obtain ⟨us, d⟩ := round
      obtain ⟨hus, hd⟩ := he hc.skip hround
      obtain ⟨⟨more, hmore, htrees⟩, hlast⟩ := ih hd
      refine ⟨⟨us :: more, ?_, ?_⟩, hlast⟩
      · exact List.forall_mem_cons.2 ⟨hus, hmore⟩
      · rw [List.flatten_cons, ← htrees]

/-- A match yields what the expression tells, and leads from a place of the text to another. -/
theorem yields_of_found (hcuts : e.Cuts) {c d : Cursor} (hc : c.IsIn text)
    (h : found e c = some (ts, d)) : Yields text e ts ∧ d.IsIn text := by
  induction e generalizing c d ts with
  | start =>
    obtain ⟨-, rfl, rfl⟩ := found_start_iff.1 h
    exact ⟨rfl, hc⟩
  | silent s =>
    obtain ⟨hstop, rfl⟩ := found_silent_iff.1 h
    exact ⟨rfl, (hc.advance hcuts hstop).1⟩
  | token r s =>
    obtain ⟨hstop, rfl⟩ := found_token_iff.1 h
    obtain ⟨hplace, hlexeme⟩ := hc.advance hcuts hstop
    exact ⟨⟨_, hlexeme, rfl⟩, hplace⟩
  | phrase r e ih =>
    obtain ⟨us, hinside, rfl⟩ := found_phrase_iff.1 h
    obtain ⟨hus, hplace⟩ := ih hcuts hc hinside
    exact ⟨⟨_, _, us, hus, rfl⟩, hplace⟩
  | seq a b iha ihb =>
    obtain ⟨us, mid, vs, ha, hb, rfl⟩ := found_seq_iff.1 h
    obtain ⟨hus, hmid⟩ := iha hcuts.1 hc ha
    obtain ⟨hvs, hstop⟩ := ihb hcuts.2 hmid.skip hb
    exact ⟨⟨us, vs, hus, hvs, rfl⟩, hstop⟩
  | alt a b iha ihb =>
    rcases found_alt_iff.1 h with h | ⟨-, h⟩
    · exact (iha hcuts.1 hc h).imp_left Or.inl
    · exact (ihb hcuts.2 hc h).imp_left Or.inr
  | opt e ih =>
    rcases found_opt_iff.1 h with h | ⟨-, rfl, rfl⟩
    · exact (ih hcuts hc h).imp_left Or.inl
    · exact ⟨Or.inr rfl, hc⟩
  | many e ih =>
    rcases found_many_iff.1 h with ⟨-, rfl, rfl⟩ | ⟨us, mid, hfirst, rfl, rfl⟩
    · exact ⟨⟨[], List.forall_mem_nil _, rfl⟩, hc⟩
    · obtain ⟨hus, hmid⟩ := ih hcuts hc hfirst
      obtain ⟨⟨more, hmore, htrees⟩, hlast⟩ :=
        yields_of_rounds (fun _ _ _ hplace => ih hcuts hplace) (mid.rest.length + 1) hmid
      refine ⟨⟨us :: more, List.forall_mem_cons.2 ⟨hus, hmore⟩, ?_⟩, hlast⟩
      rw [List.flatten_cons]
      exact congrArg (us ++ ·) htrees
  | never e ih =>
    obtain ⟨-, rfl, rfl⟩ := found_never_iff.1 h
    exact ⟨rfl, hc⟩

/-! ## Parts under a rule -/

/-- The rule under which a token or a phrase is recorded. -/
def rule? : Expr → Option Rule
  | .token r _ | .phrase r _ => some r
  | _ => none

/-- The tokens and phrases of an expression that stand in no other phrase. -/
def parts : Expr → List Expr
  | .start | .silent _ | .never _ => []
  | .token r s => [.token r s]
  | .phrase r e => [.phrase r e]
  | .seq a b | .alt a b => a.parts ++ b.parts
  | .opt e | .many e => e.parts

/-- The parts that are recorded under a rule with the property. -/
def under (e : Expr) (p : Rule → Bool) : List Expr := e.parts.filter (·.rule?.any p)

variable {p : Rule → Bool}

/-- A tree is yielded by a part that is recorded under its rule. -/
theorem yields_of_mem (h : Yields text e ts) (ht : t ∈ ts) :
    ∃ x ∈ e.parts, x.rule? = some t.rule ∧ Yields text x [t] := by
  induction e generalizing ts with
  | start | silent s | never e =>
    rw [h] at ht
    cases ht
  | token r s =>
    obtain ⟨span, hspan, rfl⟩ := h
    obtain rfl := List.mem_singleton.1 ht
    exact ⟨_, List.mem_singleton_self _, rfl, span, hspan, rfl⟩
  | phrase r e =>
    obtain ⟨start, stop, us, hus, rfl⟩ := h
    obtain rfl := List.mem_singleton.1 ht
    exact ⟨_, List.mem_singleton_self _, rfl, start, stop, us, hus, rfl⟩
  | seq a b iha ihb =>
    obtain ⟨us, vs, hus, hvs, rfl⟩ := h
    rcases List.mem_append.1 ht with ht | ht
    · obtain ⟨x, hx, hyields⟩ := iha hus ht
      exact ⟨x, List.mem_append_left _ hx, hyields⟩
    · obtain ⟨x, hx, hyields⟩ := ihb hvs ht
      exact ⟨x, List.mem_append_right _ hx, hyields⟩
  | alt a b iha ihb =>
    rcases h with h | h
    · obtain ⟨x, hx, hyields⟩ := iha h ht
      exact ⟨x, List.mem_append_left _ hx, hyields⟩
    · obtain ⟨x, hx, hyields⟩ := ihb h ht
      exact ⟨x, List.mem_append_right _ hx, hyields⟩
  | opt e ih =>
    rcases h with h | rfl
    · exact ih h ht
    · cases ht
  | many e ih =>
    obtain ⟨rounds, hrounds, rfl⟩ := h
    obtain ⟨us, hus, ht⟩ := List.mem_flatten.1 ht
    exact ih (hrounds us hus) ht

theorem exists_under_of_mem (h : Yields text e ts) (ht : t ∈ ts) (hp : p t.rule = true) :
    ∃ x ∈ e.under p, Yields text x [t] := by
  obtain ⟨x, hx, hrule, hyields⟩ := yields_of_mem h ht
  exact ⟨x, List.mem_filter.2 ⟨hx, by simp [hrule, hp]⟩, hyields⟩

theorem filter_of_under (hunder : e.under p = []) (h : Yields text e ts) :
    ts.filter (p ·.rule) = [] := by
  rw [List.filter_eq_nil_iff]
  intro t ht hp
  obtain ⟨x, hx, -⟩ := exists_under_of_mem h ht hp
  rw [hunder] at hx
  cases hx

/-- A phrase yields one tree with its rule, and the inside of the phrase yields what is below it. -/
theorem yields_phrase_iff :
    Yields text (.phrase r e) [t] ↔ t.rule = r ∧ Yields text e t.children := by
  obtain ⟨rule, start, stop, children⟩ := t
  constructor
  · rintro ⟨a, b, us, hus, heq⟩
    obtain ⟨rfl, -, -, rfl⟩ := Tree.node.inj (List.cons.inj heq).1
    exact ⟨rfl, hus⟩
  · rintro ⟨rfl, hchildren⟩
    exact ⟨start, stop, children, hchildren, rfl⟩

/-- Where only one part of a phrase is recorded under a rule, it yields the trees of that rule below the
one of the phrase. -/
theorem Yields.child (h : Yields text (.phrase r e) [t]) {u : Tree} {q : Rule} (hu : u ∈ t.children)
    (hrule : u.rule = q) (honly : ∀ y ∈ e.under (· == q), y = x) : Yields text x [u] := by
  obtain ⟨y, hy, hyields⟩ := exists_under_of_mem (p := (· == q)) (yields_phrase_iff.1 h).2 hu
    (by simp [hrule])
  rwa [honly y hy] at hyields

/-- For parts that stand both at the front of a list and behind a comma. -/
theorem eq_of_mem_pair {α : Type} {a x : α} (h : x ∈ [a, a]) : x = a := by
  simpa using h

/-! ## Matches of parts -/

/-- A tree of the rounds of a repetition stems from a match of one round. -/
theorem exists_round_of_mem
    (he : ∀ ⦃c d : Cursor⦄ ⦃us : List Tree⦄, c.IsIn text → found e c = some (us, d) → d.IsIn text)
    (n : Nat) {c : Cursor} (hc : c.IsIn text) (ht : t ∈ (rounds (found e) n c).1) :
    ∃ d us stop, d.IsIn text ∧ found e d = some (us, stop) ∧ t ∈ us := by
  induction n generalizing c with
  | zero => cases ht
  | succ n ih =>
    rw [rounds] at ht
    cases hround : found e c.skip with
    | none =>
      rw [hround] at ht
      cases ht
    | some round =>
      obtain ⟨us, d⟩ := round
      rw [hround] at ht
      rcases List.mem_append.1 ht with ht | ht
      · exact ⟨c.skip, us, d, hc.skip, hround, ht⟩
      · exact ih (he hc.skip hround) ht

/-- A tree of a match is itself the match of a part, at a place of the text. -/
theorem exists_found_of_mem (hcuts : e.Cuts) {c d : Cursor} (hc : c.IsIn text)
    (h : found e c = some (ts, d)) (ht : t ∈ ts) :
    ∃ x ∈ e.parts, x.rule? = some t.rule
      ∧ ∃ start stop : Cursor, start.IsIn text ∧ found x start = some ([t], stop) := by
  induction e generalizing c d ts with
  | start =>
    obtain ⟨-, rfl, -⟩ := found_start_iff.1 h
    cases ht
  | silent s =>
    obtain ⟨-, rfl⟩ := found_silent_iff.1 h
    cases ht
  | never e =>
    obtain ⟨-, rfl, -⟩ := found_never_iff.1 h
    cases ht
  | token r s =>
    obtain ⟨-, rfl⟩ := found_token_iff.1 h
    obtain rfl := List.mem_singleton.1 ht
    exact ⟨_, List.mem_singleton_self _, rfl, c, d, hc, h⟩
  | phrase r e =>
    obtain ⟨us, -, rfl⟩ := found_phrase_iff.1 h
    obtain rfl := List.mem_singleton.1 ht
    exact ⟨_, List.mem_singleton_self _, rfl, c, d, hc, h⟩
  | seq a b iha ihb =>
    obtain ⟨us, mid, vs, ha, hb, rfl⟩ := found_seq_iff.1 h
    rcases List.mem_append.1 ht with ht | ht
    · obtain ⟨x, hx, hfound⟩ := iha hcuts.1 hc ha ht
      exact ⟨x, List.mem_append_left _ hx, hfound⟩
    · obtain ⟨x, hx, hfound⟩ := ihb hcuts.2 (yields_of_found hcuts.1 hc ha).2.skip hb ht
      exact ⟨x, List.mem_append_right _ hx, hfound⟩
  | alt a b iha ihb =>
    rcases found_alt_iff.1 h with h | ⟨-, h⟩
    · obtain ⟨x, hx, hfound⟩ := iha hcuts.1 hc h ht
      exact ⟨x, List.mem_append_left _ hx, hfound⟩
    · obtain ⟨x, hx, hfound⟩ := ihb hcuts.2 hc h ht
      exact ⟨x, List.mem_append_right _ hx, hfound⟩
  | opt e ih =>
    rcases found_opt_iff.1 h with h | ⟨-, rfl, -⟩
    · exact ih hcuts hc h ht
    · cases ht
  | many e ih =>
    have hcuts : e.Cuts := hcuts
    rcases found_many_iff.1 h with ⟨-, rfl, -⟩ | ⟨us, mid, hfirst, rfl, -⟩
    · cases ht
    · rcases List.mem_append.1 ht with ht | ht
      · exact ih hcuts hc hfirst ht
      · obtain ⟨start, vs, stop, hstart, hround, ht⟩ := exists_round_of_mem
          (fun _ _ _ hplace hround => (yields_of_found hcuts hplace hround).2) (mid.rest.length + 1)
          (yields_of_found hcuts hc hfirst).2 ht
        exact ih hcuts hstart hround ht

/-- A tree of a match that is recorded under a rule is the match of a part that is. -/
theorem exists_found_under (hcuts : e.Cuts) {c d : Cursor} (hc : c.IsIn text)
    (h : found e c = some (ts, d)) (ht : t ∈ ts) (hp : p t.rule = true) :
    ∃ x ∈ e.under p, ∃ start stop : Cursor, start.IsIn text ∧ found x start = some ([t], stop) := by
  obtain ⟨x, hx, hrule, hfound⟩ := exists_found_of_mem hcuts hc h ht
  exact ⟨x, List.mem_filter.2 ⟨hx, by simp [hrule, hp]⟩, hfound⟩

theorem cuts_of_mem_parts (h : e.Cuts) (hx : x ∈ e.parts) : x.Cuts := by
  induction e with
  | start | silent s | never e => cases hx
  | token r s | phrase r e =>
    obtain rfl := List.mem_singleton.1 hx
    exact h
  | seq a b iha ihb | alt a b iha ihb =>
    rcases List.mem_append.1 hx with hx | hx
    · exact iha h.1 hx
    · exact ihb h.2 hx
  | opt e ih | many e ih => exact ih h hx

/-- The tree is a match of the expression at a place of the text. -/
structure IsMatch (text : List Char) (e : Expr) (t : Tree) : Prop where
  cuts : e.Cuts
  exists_found : ∃ start stop : Cursor, start.IsIn text ∧ found e start = some ([t], stop)

namespace IsMatch

variable {q : Rule} {u : Tree}

theorem yields (h : IsMatch text e t) : Yields text e [t] := by
  obtain ⟨hcuts, start, stop, hstart, hfound⟩ := h
  exact (yields_of_found hcuts hstart hfound).1

/-- Where only one part of a phrase is recorded under rules with a property, a tree of such a rule below
a match of the phrase is a match of the part. -/
theorem below (p : Rule → Bool) (h : IsMatch text (.phrase r e) t) (hu : u ∈ t.children)
    (hp : p u.rule = true) (honly : ∀ y ∈ e.under p, y = x) : IsMatch text x u := by
  obtain ⟨hcuts, start, stop, hstart, hfound⟩ := h
  obtain ⟨us, hinside, heq⟩ := found_phrase_iff.1 hfound
  obtain rfl := (List.cons.inj heq).1
  obtain ⟨y, hy, hplace⟩ := exists_found_under (e := e) hcuts hstart hinside hu hp
  obtain rfl := honly y hy
  exact ⟨cuts_of_mem_parts (e := e) hcuts (List.mem_filter.1 hy).1, hplace⟩

theorem child (x : Expr) (h : IsMatch text (.phrase r e) t) (hu : u ∈ t.children) (hrule : u.rule = q)
    (honly : ∀ y ∈ e.under (· == q), y = x) : IsMatch text x u :=
  h.below (· == q) hu (by simp [hrule]) honly

end IsMatch

/-! ## Trees that stand once -/

/-- Exactly one of the trees that the expression yields has a rule with the property, and `x` yields
that tree. -/
def HoldsOne (text : List Char) (x : Expr) (p : Rule → Bool) (e : Expr) : Prop :=
  ∀ ts, Yields text e ts → ∃ t, ts.filter (p ·.rule) = [t] ∧ Yields text x [t]

namespace HoldsOne

variable {y : Expr}

theorem token {s : Scan} (hp : p r = true) : HoldsOne text (.token r s) p (.token r s) := by
  rintro ts ⟨span, hspan, rfl⟩
  exact ⟨_, by simp [Tree.rule, hp], span, hspan, rfl⟩

theorem phrase (hp : p r = true) : HoldsOne text (.phrase r e) p (.phrase r e) := by
  rintro ts ⟨start, stop, us, hus, rfl⟩
  exact ⟨_, by simp [Tree.rule, hp], start, stop, us, hus, rfl⟩

theorem seq_left (ha : HoldsOne text x p a) (hb : b.under p = []) : HoldsOne text x p (.seq a b) := by
  rintro ts ⟨us, vs, hus, hvs, rfl⟩
  obtain ⟨t, ht, hyields⟩ := ha us hus
  exact ⟨t, by rw [List.filter_append, ht, filter_of_under hb hvs, List.append_nil], hyields⟩

theorem seq_right (ha : a.under p = []) (hb : HoldsOne text x p b) : HoldsOne text x p (.seq a b) := by
  rintro ts ⟨us, vs, hus, hvs, rfl⟩
  obtain ⟨t, ht, hyields⟩ := hb vs hvs
  exact ⟨t, by rw [List.filter_append, ht, filter_of_under ha hus, List.nil_append], hyields⟩

theorem alt (ha : HoldsOne text x p a) (hb : HoldsOne text y p b) :
    HoldsOne text (.alt x y) p (.alt a b) := by
  intro ts h
  rcases h with h | h
  · obtain ⟨t, ht, hyields⟩ := ha ts h
    exact ⟨t, ht, Or.inl hyields⟩
  · obtain ⟨t, ht, hyields⟩ := hb ts h
    exact ⟨t, ht, Or.inr hyields⟩

/-- What stands once inside a phrase stands once right below its tree. -/
theorem below (p : Rule → Bool) (h : Yields text (.phrase r e) [t]) (he : HoldsOne text x p e) :
    ∃ u, t.children.filter (p ·.rule) = [u] ∧ Yields text x [u] :=
  he t.children (yields_phrase_iff.1 h).2

end HoldsOne

end Expr

end GoScaffold.Grammar
