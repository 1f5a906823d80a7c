import GoScaffold.Grammar.Ddl

set_option autoImplicit false

/-! # Matches without the record of failures

Matching carries along how far any rule got, for the sake of messages. What it finds does not depend
on that: `Expr.found` matches without the record, and `Expr.run_fst` says that it finds the same.

Tokens are only tried where no white space and no comment comes next. So matches are told from one
such place to the next: `Expr.Leads e c d ts` says that `e` matches at `c` and that `d` is the place
after it and after the white space and comments that follow. The lemmas below give one rule for each
form of expression. -/

namespace GoScaffold.Grammar

open Text

namespace Expr

@[simp] theorem andThen_eq (a b : Expr) : (a >> b) = .seq a b := rfl

@[simp] theorem orElse_eq (a b : Expr) : (a <|> b) = .alt a b := rfl

/-- Repeats a step, with a skip before each round, until it fails or the rounds run out. -/
def rounds (step : Cursor → Option (List Tree × Cursor)) : Nat → Cursor → List Tree × Cursor
  | 0, c => ([], c)
  | n + 1, c =>
    match step c.skip with
    | none => ([], c)
    | some (ts, d) => (ts ++ (rounds step n d).1, (rounds step n d).2)

/-- What an expression matches at a place: its trees and the place after it. -/
def found : Expr → Cursor → Option (List Tree × Cursor)
  | .start, c => if c.offset = 0 then some ([], c) else none
  | .silent s, c => (c.advance? s).map fun d => ([], d)
  | .token r s, c => (c.advance? s).map fun d => ([.node r c.offset d.offset []], d)
  | .phrase r e, c => (found e c).map fun (ts, d) => ([.node r c.offset d.offset ts], d)
  | .seq a b, c =>
    (found a c).bind fun (ts, d) => (found b d.skip).map fun (us, e) => (ts ++ us, e)
  | .alt a b, c => (found a c).or (found b c)
  | .opt e, c => some ((found e c).getD ([], c))
  | .many e, c =>
    match found e c with
    | none => some ([], c)
    | some (ts, d) =>
      let (us, d) := rounds (found e) (d.rest.length + 1) d
      some (ts ++ us, d)
  | .never e, c => if (found e c).isSome then none else some ([], c)

/-! ### When each form of expression matches -/

section

variable {a b e : Expr} {r : Rule} {s : Scan} {c d : Cursor} {ts : List Tree}

theorem found_start_iff : found .start c = some (ts, d) ↔ c.offset = 0 ∧ ts = [] ∧ d = c := by
  refine Option.ite_none_right_eq_some.trans ?_
  rw [Option.some_inj, Prod.mk.injEq, eq_comm (a := []), eq_comm (a := c)]

theorem found_silent_iff : found (.silent s) c = some (ts, d) ↔ c.advance? s = some d ∧ ts = [] := by
  refine Option.map_eq_some_iff.trans ⟨?_, ?_⟩
  · rintro ⟨stop, hstop, hparts⟩
    obtain ⟨rfl, rfl⟩ := Prod.mk.inj hparts
    exact ⟨hstop, rfl⟩
  · rintro ⟨hstop, rfl⟩
    exact ⟨d, hstop, rfl⟩

theorem found_token_iff :
    found (.token r s) c = some (ts, d)
      ↔ c.advance? s = some d ∧ ts = [.node r c.offset d.offset []] := by
  refine Option.map_eq_some_iff.trans ⟨?_, ?_⟩
  · rintro ⟨stop, hstop, hparts⟩
    obtain ⟨rfl, rfl⟩ := Prod.mk.inj hparts
    exact ⟨hstop, rfl⟩
  · rintro ⟨hstop, rfl⟩
    exact ⟨d, hstop, rfl⟩

theorem found_phrase_iff :
    found (.phrase r e) c = some (ts, d)
      ↔ ∃ us, found e c = some (us, d) ∧ ts = [.node r c.offset d.offset us] := by
  refine Option.map_eq_some_iff.trans ⟨?_, ?_⟩
  · rintro ⟨⟨us, stop⟩, hinside, hparts⟩
    obtain ⟨rfl, rfl⟩ := Prod.mk.inj hparts
    exact ⟨us, hinside, rfl⟩
  · rintro ⟨us, hinside, rfl⟩
    exact ⟨(us, d), hinside, rfl⟩

theorem found_seq_iff :
    found (.seq a b) c = some (ts, d)
      ↔ ∃ us mid vs, found a c = some (us, mid) ∧ found b mid.skip = some (vs, d) ∧ ts = us ++ vs := by
  refine Option.bind_eq_some_iff.trans ⟨?_, ?_⟩
  · rintro ⟨⟨us, mid⟩, ha, hrest⟩
    obtain ⟨⟨vs, stop⟩, hb, hparts⟩ := Option.map_eq_some_iff.1 hrest
    obtain ⟨rfl, rfl⟩ := Prod.mk.inj hparts
    exact ⟨us, mid, vs, ha, hb, rfl⟩
  · rintro ⟨us, mid, vs, ha, hb, rfl⟩
    exact ⟨(us, mid), ha, Option.map_eq_some_iff.2 ⟨(vs, d), hb, rfl⟩⟩

theorem found_alt_iff :
    found (.alt a b) c = some (ts, d)
      ↔ found a c = some (ts, d) ∨ found a c = none ∧ found b c = some (ts, d) :=
  Option.or_eq_some_iff

theorem found_opt_iff :
    found (.opt e) c = some (ts, d)
      ↔ found e c = some (ts, d) ∨ found e c = none ∧ ts = [] ∧ d = c := by
  refine Option.some_inj.trans ?_
  cases found e c with
  | none => simp [eq_comm]
  | some outcome => simp

/-- A repetition matches nothing, or once and then in as many rounds as there are. -/
theorem found_many_iff :
    found (.many e) c = some (ts, d)
      ↔ found e c = none ∧ ts = [] ∧ d = c
        ∨ ∃ us mid, found e c = some (us, mid)
          ∧ ts = us ++ (rounds (found e) (mid.rest.length + 1) mid).1
          ∧ d = (rounds (found e) (mid.rest.length + 1) mid).2 := by
  rw [found]
  cases found e c with
  | none => simp [eq_comm]
  | some outcome =>
    obtain ⟨us, mid⟩ := outcome
    simp only [Option.some_inj, Prod.mk.injEq, reduceCtorEq, false_and, false_or]
    constructor
    · rintro ⟨rfl, rfl⟩
      exact ⟨us, mid, ⟨rfl, rfl⟩, rfl, rfl⟩
    · rintro ⟨us, mid, ⟨rfl, rfl⟩, rfl, rfl⟩
      exact ⟨rfl, rfl⟩

theorem found_never_iff :
    found (.never e) c = some (ts, d) ↔ found e c = none ∧ ts = [] ∧ d = c := by
  refine Option.ite_none_left_eq_some.trans ?_
  rw [Option.not_isSome_iff_eq_none, Option.some_inj, Prod.mk.injEq, eq_comm (a := []),
    eq_comm (a := c)]

end

theorem found_seq_eq_none {a b : Expr} {c : Cursor} (h : found a c = none) :
    found (.seq a b) c = none := by
  show (found a c).bind _ = none
  rw [h, Option.bind_none]

/-- A sequence from the start of the text is the rest of it, after the white space there. -/
theorem found_seq_start {e : Expr} {c d : Cursor} (hc : c.offset = 0) (hskip : c.skip = d) :
    found (.seq .start e) c = found e d := by
  simp [found, hc, hskip]

theorem found_phrase_eq_none {r : Rule} {e : Expr} {c : Cursor} (h : found e c = none) :
    found (.phrase r e) c = none :=
  Option.map_eq_none_iff.2 h

theorem again_eq_rounds {e : Expr} {inverted : Bool}
    (h : ∀ c reach, (run e inverted c reach).1 = found e c) (n : Nat) (c : Cursor) (reach : Reach) :
    ((again (run e inverted) n c reach).1, (again (run e inverted) n c reach).2.1)
      = rounds (found e) n c := by
  induction n generalizing c reach with
  | zero => rfl
  | succ n ih =>
    have hstep := h c.skip reach
    rw [again, rounds, ← hstep]
    rcases run e inverted c.skip reach with ⟨_ | ⟨ts, d⟩, reach'⟩
    · rfl
    · simp only
      rw [← ih d reach']

/-- What is found does not depend on the record of failures. -/
theorem run_fst (e : Expr) (inverted : Bool) (c : Cursor) (reach : Reach) :
    (run e inverted c reach).1 = found e c := by
  -- The record only grows along the way; no case looks at it to decide.
  induction e generalizing inverted c reach with
  | start => rfl
  | silent s => rfl
  | token r s => rfl
  | phrase r e ih => rw [run, found, ← ih inverted c reach]
  | seq a b iha ihb =>
    rw [run, found, ← iha inverted c reach]
    rcases run a inverted c reach with ⟨_ | ⟨ts, d⟩, reach'⟩
    · rfl
    · simp only [Option.bind_some]
      rw [← ihb inverted d.skip reach']
      rcases run b inverted d.skip reach' with ⟨_ | ⟨us, e⟩, reach''⟩ <;> rfl
  | alt a b iha ihb =>
    rw [run, found, ← iha inverted c reach]
    rcases run a inverted c reach with ⟨_ | ⟨ts, d⟩, reach'⟩
    · simp only [Option.none_or]
      exact ihb inverted c reach'
    · rfl
  | opt e ih =>
    rw [run, found, ← ih inverted c reach]
    rcases run e inverted c reach with ⟨_ | ⟨ts, d⟩, reach'⟩ <;> rfl
  | many e ih =>
    rw [run, found, ← ih inverted c reach]
    rcases run e inverted c reach with ⟨_ | ⟨ts, d⟩, reach'⟩
    · rfl
    · simp only
      rw [← again_eq_rounds (ih inverted) (d.rest.length + 1) d reach']
  | never e ih =>
    rw [run, found, ← ih (!inverted) c reach]
    rcases run e (!inverted) c reach with ⟨_ | ⟨ts, d⟩, reach'⟩ <;> rfl

/-- A match of an expression decides the parse, and the record only words the failure. -/
theorem parse_eq_ok {e : Expr} {text : List Char} {ts : List Tree} :
    parse e text = .ok ts ↔ ∃ c, found e ⟨0, text⟩ = some (ts, c) := by
  rw [parse, ← run_fst e false ⟨0, text⟩ Reach.none]
  rcases run e false ⟨0, text⟩ Reach.none with ⟨_ | ⟨us, d⟩, reach⟩
  · simp
  · simp

end Expr

/-! ## Skipping -/

namespace Scan

/-- After white space and comments there is no more of either. -/
theorem blanksFrom_snd (pending : Nat) (cs : List Char) :
    blanks (blanksFrom pending cs).2 = ([], (blanksFrom pending cs).2) := by
  fun_induction blanksFrom pending cs with
  | case1 => simp [blanks, blanksFrom]
  | case2 pending c cs taken rest hrest ih => rwa [hrest] at ih
  | case3 c cs hspace taken rest hrest ih => rwa [hrest] at ih
  | case4 c cs hspace lexeme rest hcomment taken rest' hrest ih => rwa [hrest] at ih
  | case5 c cs hspace hcomment => simp [blanks, blanksFrom, hspace, hcomment]

/-- Skipping only cuts the text in two. -/
theorem blanksFrom_append (pending : Nat) (cs : List Char) :
    (blanksFrom pending cs).1 ++ (blanksFrom pending cs).2 = cs := by
  fun_induction blanksFrom pending cs with
  | case1 => rfl
  | case2 pending c cs taken rest hrest ih => simpa [hrest] using ih
  | case3 c cs hspace taken rest hrest ih => simpa [hrest] using ih
  | case4 c cs hspace lexeme rest hcomment taken rest' hrest ih => simpa [hrest] using ih
  | case5 c cs hspace hcomment => rfl

theorem blanks_of_isSpace {c : Char} (cs : List Char) (h : isSpace c = true) :
    blanks (c :: cs) = (c :: (blanks cs).1, (blanks cs).2) := by
  simp [blanks, blanksFrom, h]

end Scan

@[simp] theorem Cursor.skip_skip (c : Cursor) : c.skip.skip = c.skip := by
  have h := Scan.blanksFrom_snd 0 c.rest
  simp only [skip, Scan.blanks] at h ⊢
  rw [h]
  simp [width]

theorem Cursor.length_skip_le (c : Cursor) : c.skip.rest.length ≤ c.rest.length := by
  have h := congrArg List.length (Scan.blanksFrom_append 0 c.rest)
  simp only [List.length_append] at h
  simp only [skip, Scan.blanks]
  omega

/-! ## From one token to the next -/

namespace Expr

/-- The expression matches at `c`, and `d` is the place after the match and after the white space
and comments that follow. -/
def Leads (e : Expr) (c d : Cursor) (ts : List Tree) : Prop :=
  ∃ stop, found e c = some (ts, stop) ∧ stop.skip = d

namespace Leads

variable {a b e : Expr} {c d f : Cursor} {ts us : List Tree}

theorem phrase (r : Rule) (h : Leads e c d ts) :
    ∃ stop, Leads (.phrase r e) c d [.node r c.offset stop ts] := by
  obtain ⟨stop, hstop, hd⟩ := h
  exact ⟨stop.offset, stop, found_phrase_iff.2 ⟨ts, hstop, rfl⟩, hd⟩

theorem seq (ha : Leads a c d ts) (hb : Leads b d f us) : Leads (.seq a b) c f (ts ++ us) := by
  obtain ⟨stop, hstop, rfl⟩ := ha
  obtain ⟨last, hlast, hf⟩ := hb
  exact ⟨last, found_seq_iff.2 ⟨ts, stop, us, hstop, hlast, rfl⟩, hf⟩

theorem alt_left (h : Leads a c d ts) : Leads (.alt a b) c d ts := by
  obtain ⟨stop, hstop, hd⟩ := h
  exact ⟨stop, found_alt_iff.2 (.inl hstop), hd⟩

theorem alt_right (ha : found a c = none) (h : Leads b c d ts) : Leads (.alt a b) c d ts := by
  obtain ⟨stop, hstop, hd⟩ := h
  exact ⟨stop, found_alt_iff.2 (.inr ⟨ha, hstop⟩), hd⟩

theorem opt (h : Leads e c d ts) : Leads (.opt e) c d ts := by
  obtain ⟨stop, hstop, hd⟩ := h
  exact ⟨stop, found_opt_iff.2 (.inl hstop), hd⟩

theorem opt_none (h : found e c = none) (hc : c.skip = c) : Leads (.opt e) c c [] :=
  ⟨c, found_opt_iff.2 (.inr ⟨h, rfl, rfl⟩), hc⟩

theorem many_none (h : found e c = none) (hc : c.skip = c) : Leads (.many e) c c [] :=
  ⟨c, found_many_iff.2 (.inl ⟨h, rfl, rfl⟩), hc⟩

theorem never (h : found e c = none) (hc : c.skip = c) : Leads (.never e) c c [] :=
  ⟨c, found_never_iff.2 ⟨h, rfl, rfl⟩, hc⟩

end Leads

/-- Matches one after another, each from the place that the one before leads to. -/
inductive Chain (e : Expr) : Cursor → Cursor → List Tree → Prop
  | stop {c : Cursor} (fails : found e c = none) (settled : c.skip = c) : Chain e c c []
  | step {c d f : Cursor} {ts us : List Tree} (first : Leads e c d ts)
    (shorter : d.rest.length < c.rest.length) (rest : Chain e d f us) : Chain e c f (ts ++ us)

theorem Chain.rounds {e : Expr} {d f : Cursor} {us : List Tree} (h : Chain e d f us) (n : Nat)
    (hn : d.rest.length < n) (stop : Cursor) (hstop : stop.skip = d) :
    (Expr.rounds (found e) n stop).1 = us ∧ (Expr.rounds (found e) n stop).2.skip = f := by
  induction h generalizing n stop with
  | stop fails settled =>
    cases n with
    | zero => omega
    | succ n => simp [Expr.rounds, hstop, fails]
  | step first shorter rest ih =>
    obtain ⟨next, hnext, hd⟩ := first
    cases n with
    | zero => omega
    | succ n =>
      obtain ⟨hts, hf⟩ := ih n (by omega) next hd
      simp [Expr.rounds, hstop, hnext, hts, hf]

/-- A chain of matches is one match of the repetition. -/
theorem Chain.many {e : Expr} {c d : Cursor} {ts : List Tree} (h : Chain e c d ts) :
    Leads (.many e) c d ts := by
  cases h with
  | stop fails settled => exact Leads.many_none fails settled
  | step first shorter rest =>
    obtain ⟨stop, hstop, rfl⟩ := first
    have hlen := Cursor.length_skip_le stop
    obtain ⟨hts, hd⟩ := rest.rounds (stop.rest.length + 1) (by omega) stop rfl
    exact ⟨_, found_many_iff.2 (.inr ⟨_, stop, hstop, by rw [hts], rfl⟩), hd⟩

end Expr

end GoScaffold.Grammar
