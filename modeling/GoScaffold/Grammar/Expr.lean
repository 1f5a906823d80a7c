import GoScaffold.Grammar.Rule
import GoScaffold.Grammar.Scan
import GoScaffold.Text.Span

set_option autoImplicit false

/-! # Parsing expressions

Phrases are described by parsing expressions with ordered choice. Between the members of a sequence
and the rounds of a repetition, white space and comments are skipped. Tokens are scanned as a whole.
A match yields the trees of the rules it went through, each with the bytes it took; a failure tells
how far any rule got and which rules were tried there.

The grammar has no recursion outside its tokens, so an expression is a finite tree and matching is
a recursion on it; only a repetition counts its rounds: every round but the last takes a character. -/

namespace GoScaffold.Grammar

/-- A parsing expression. -/
inductive Expr
  /-- The start of the text. -/
  | start
  /-- A lexeme that leaves no trace. -/
  | silent (s : Scan)
  /-- A lexeme recorded under a rule. -/
  | token (r : Rule) (s : Scan)
  /-- A phrase recorded under a rule. -/
  | phrase (r : Rule) (e : Expr)
  /-- One after another. -/
  | seq (a b : Expr)
  /-- The first, or the second where the first fails. -/
  | alt (a b : Expr)
  /-- Once or not at all. -/
  | opt (e : Expr)
  /-- Any number of times. -/
  | many (e : Expr)
  /-- Nothing, where the expression does not match. -/
  | never (e : Expr)

instance : AndThen Expr := ⟨fun a b => .seq a (b ())⟩

instance : OrElse Expr := ⟨fun a b => .alt a (b ())⟩

/-- What a rule matched: the bytes from `start` to `stop`, and the rules inside it. -/
inductive Tree
  | node (rule : Rule) (start stop : Nat) (children : List Tree)
  deriving Repr

namespace Tree

/-- The rule at the root. -/
def rule : Tree → Rule
  | .node r _ _ _ => r

/-- The bytes that the root took. -/
def span : Tree → Span
  | .node _ start stop _ => ⟨start, stop⟩

/-- The trees right below the root. -/
def children : Tree → List Tree
  | .node _ _ _ ts => ts

/-- The first tree right below the root that has the rule. -/
def child? (t : Tree) (r : Rule) : Option Tree := t.children.find? fun u => u.rule == r

end Tree

/-- A place in the text: how many bytes came before it, and what follows. -/
structure Cursor where
  offset : Nat
  rest : List Char

namespace Cursor

/-- The place after a lexeme, if the scanner finds one. -/
def advance? (c : Cursor) (s : Scan) : Option Cursor :=
  (s c.rest).map fun (lexeme, rest) => ⟨c.offset + Text.width lexeme, rest⟩

/-- The place after white space and comments. -/
def skip (c : Cursor) : Cursor :=
  let (taken, rest) := Scan.blanks c.rest
  ⟨c.offset + Text.width taken, rest⟩

end Cursor

/-! ## The furthest failure -/

/-- How far any rule got: the furthest place where a rule was tried in vain, with the rules that
would have led on from there, and those that were met where they must not stand. -/
structure Reach where
  offset : Nat
  expected : List Rule
  unexpected : List Rule

namespace Reach

/-- Nothing was tried yet. -/
def none : Reach := ⟨0, [], []⟩

/-- How many rules are recorded at a place. -/
def attempts (reach : Reach) (offset : Nat) : Nat :=
  if reach.offset = offset then reach.expected.length + reach.unexpected.length else 0

/-- Records a rule that was tried at `offset` when the record was `before`. A rule inside which
exactly one rule was recorded at the same place leaves that one to speak for it; otherwise the rule
replaces whatever was recorded inside it at that place. -/
def record (reach before : Reach) (rule : Rule) (offset : Nat) (inverted : Bool) : Reach :=
  if reach.attempts offset = before.attempts offset + 1 then reach
  else if offset < reach.offset then reach
  else
    let kept : Reach :=
      if offset = before.offset then
        ⟨offset, reach.expected.take before.expected.length,
          reach.unexpected.take before.unexpected.length⟩
      else ⟨offset, [], []⟩
    if inverted then { kept with unexpected := kept.unexpected ++ [rule] }
    else { kept with expected := kept.expected ++ [rule] }

/-- The record after a rule was tried: it counts when it failed, or, where the expression around it
must not match, when it matched. -/
def settle (reach before : Reach) (rule : Rule) (offset : Nat) (inverted matched : Bool) : Reach :=
  if matched == inverted then reach.record before rule offset inverted else reach

end Reach

/-! ## Matching -/

/-- What a match leads to: its trees and the place after it, or a failure; and the furthest record
either way. -/
abbrev Outcome := Option (List Tree × Cursor) × Reach

namespace Expr

/-- Repeats a step, with a skip before each round, until it fails or the rounds run out. -/
def again (step : Cursor → Reach → Outcome) : Nat → Cursor → Reach → List Tree × Cursor × Reach
  | 0, c, reach => ([], c, reach)
  | rounds + 1, c, reach =>
    match step c.skip reach with
    | (none, reach) => ([], c, reach)
    | (some (ts, c), reach) =>
      let (us, c, reach) := again step rounds c reach
      (ts ++ us, c, reach)

/-- Matches an expression at a place. `inverted` holds inside an odd number of `never`s. -/
def run : Expr → Bool → Cursor → Reach → Outcome
  | .start, _, c, reach => (if c.offset = 0 then some ([], c) else none, reach)
  | .silent s, _, c, reach => ((c.advance? s).map fun c => ([], c), reach)
  | .token r s, inverted, c, reach =>
    let found := c.advance? s
    (found.map fun d => ([.node r c.offset d.offset []], d),
      reach.settle reach r c.offset inverted found.isSome)
  | .phrase r e, inverted, c, reach =>
    let (found, inner) := run e inverted c reach
    (found.map fun (ts, d) => ([.node r c.offset d.offset ts], d),
      inner.settle reach r c.offset inverted found.isSome)
  | .seq a b, inverted, c, reach =>
    match run a inverted c reach with
    | (none, reach) => (none, reach)
    | (some (ts, c), reach) =>
      match run b inverted c.skip reach with
      | (none, reach) => (none, reach)
      | (some (us, c), reach) => (some (ts ++ us, c), reach)
  | .alt a b, inverted, c, reach =>
    match run a inverted c reach with
    | (none, reach) => run b inverted c reach
    | (some found, reach) => (some found, reach)
  | .opt e, inverted, c, reach =>
    match run e inverted c reach with
    | (none, reach) => (some ([], c), reach)
    | (some found, reach) => (some found, reach)
  | .many e, inverted, c, reach =>
    match run e inverted c reach with
    | (none, reach) => (some ([], c), reach)
    | (some (ts, c), reach) =>
      let (us, c, reach) := again (run e inverted) (c.rest.length + 1) c reach
      (some (ts ++ us, c), reach)
  | .never e, inverted, c, reach =>
    match run e (!inverted) c reach with
    | (none, reach) => (some ([], c), reach)
    | (some _, reach) => (none, reach)

end Expr

/-! ## Parsing -/

/-- Why a text does not match: the furthest place that any rule reached, the rules expected there
and those that must not stand there. -/
structure Failure where
  offset : Nat
  expected : List Rule
  unexpected : List Rule
  deriving Repr

namespace Failure

/-- The rules of the list in the order of messages, each once. -/
def inOrder (rules : List Rule) : List Rule := Rule.all.filter (rules.contains ·)

/-- Rule names as a choice: `a`, `a or b`, or `a, b, or c`. -/
def choice : List String → String
  | [] => ""
  | [a] => a
  | [a, b] => a ++ " or " ++ b
  | names => Text.join ", " names.dropLast ++ ", or " ++ names.getLast?.getD ""

/-- What was expected and what was met. -/
def message (f : Failure) : String :=
  let expected := choice ((inOrder f.expected).map Rule.name)
  let unexpected := choice ((inOrder f.unexpected).map Rule.name)
  match f.unexpected, f.expected with
  | [], [] => "unknown parsing error"
  | [], _ => "expected " ++ expected
  | _, [] => "unexpected " ++ unexpected
  | _, _ => "unexpected " ++ unexpected ++ "; expected " ++ expected

end Failure

/-- Matches the expression at the start of the text; the text may go on after the match. -/
def parse (e : Expr) (text : List Char) : Except Failure (List Tree) :=
  match e.run false ⟨0, text⟩ Reach.none with
  | (some (ts, _), _) => .ok ts
  | (none, reach) => .error ⟨reach.offset, reach.expected, reach.unexpected⟩

end GoScaffold.Grammar
