import GoScaffold.Text.Digits
import GoScaffold.Text.Blank
import GoScaffold.Host.Script.Token

set_option autoImplicit false

/-! # Integer expressions of shell scripts

Sums, products, comparisons and logic on integers and variables, with the usual ranks. Truth is one
and falsehood zero. -/

namespace GoScaffold.Script.Sum

/-- The integer that a text writes: in base eight after a zero, in base sixteen after `0x`. -/
def integer? (cs : List Char) : Option Int :=
  match cs with
  | '-' :: digits => (magnitude? digits).map fun n => -(n : Int)
  | '+' :: digits => (magnitude? digits).map fun n => (n : Int)
  | digits => (magnitude? digits).map fun n => (n : Int)
where
  /-- A number without a sign. -/
  magnitude? : List Char → Option Nat
    | '0' :: 'x' :: digits => Text.number? 16 digits
    | '0' :: d :: digits => Text.number? 8 (d :: digits)
    | digits => Text.number? 10 digits

/-- Operators from the weakest rank to the strongest. Among those of one rank, longer ones come
first. -/
def ranks : List (List (String × (Int → Int → Int))) := [
    [("||", fun a b => truth (a ≠ 0 || b ≠ 0))],
    [("&&", fun a b => truth (a ≠ 0 && b ≠ 0))],
    [("==", fun a b => truth (a = b)), ("!=", fun a b => truth (a ≠ b))],
    [("<=", fun a b => truth (a ≤ b)), (">=", fun a b => truth (b ≤ a)),
      ("<", fun a b => truth (a < b)), (">", fun a b => truth (b < a))],
    [("+", fun a b => a + b), ("-", fun a b => a - b)],
    [("*", fun a b => a * b), ("/", fun a b => a.tdiv b), ("%", fun a b => a.tmod b)]]
where
  /-- One or zero. -/
  truth (b : Bool) : Int := if b then 1 else 0

/-- The text without white space at its front. -/
def skip (cs : List Char) : List Char := cs.dropWhile Text.isAsciiBlank

/-- The first operator that a text starts with, and what follows it. -/
def operator? (cs : List Char) :
    List (String × (Int → Int → Int)) → Option ((Int → Int → Int) × List Char)
  | [] => none
  | (sign, f) :: rest =>
    match Text.dropPrefix? sign.toList cs with
    | some after => some (f, after)
    | none => operator? cs rest

mutual

/-- The value of an expression with operators of these ranks, and what follows it. -/
def ranked? (variableValue : String → Int) : (fuel : Nat) →
    List (List (String × (Int → Int → Int))) → List Char → Option (Int × List Char)
  | 0, _, _ => none
  | fuel + 1, [], cs => atom? variableValue fuel (skip cs)
  | fuel + 1, rank :: stronger, cs => do
    let (first, rest) ← ranked? variableValue fuel stronger cs
    operands? variableValue fuel rank stronger first (skip rest)

/-- The value with the operands that follow at one rank. -/
def operands? (variableValue : String → Int) : (fuel : Nat) →
    List (String × (Int → Int → Int)) → List (List (String × (Int → Int → Int))) → Int →
    List Char → Option (Int × List Char)
  | 0, _, _, _, _ => none
  | fuel + 1, rank, stronger, first, cs =>
    match operator? cs rank with
    | none => some (first, cs)
    | some (f, rest) => do
      let (second, rest) ← ranked? variableValue fuel stronger rest
      operands? variableValue fuel rank stronger (f first second) (skip rest)

/-- The value of a number, a variable, or an expression in parentheses, perhaps after a sign. -/
def atom? (variableValue : String → Int) : (fuel : Nat) → List Char → Option (Int × List Char)
  | 0, _ => none
  | _ + 1, [] => none
  | fuel + 1, c :: cs =>
    match c with
    | '(' => do
      let (n, rest) ← ranked? variableValue fuel ranks cs
      let ')' :: rest := skip rest | none
      return (n, rest)
    | '-' => (atom? variableValue fuel (skip cs)).map fun (n, rest) => (-n, rest)
    | '+' => atom? variableValue fuel (skip cs)
    | '!' => (atom? variableValue fuel (skip cs)).map fun (n, rest) => (if n = 0 then 1 else 0, rest)
    | _ =>
      let name := (c :: cs).takeWhile isNamePart
      let rest := (c :: cs).drop name.length
      if isName name then some (variableValue (String.ofList name), rest)
      else (integer? name).map fun n => (n, rest)

end

/-- The value of a whole text; an empty one is zero. -/
def value? (variableValue : String → Int) (cs : List Char) : Option Int := do
  if (skip cs).isEmpty then return 0
  let (n, rest) ← ranked? variableValue (8 * cs.length + 16) ranks cs
  if (skip rest).isEmpty then return n else none

end GoScaffold.Script.Sum
