import GoScaffold.Text.Cut
import GoScaffold.Text.Digits
import GoScaffold.Toml.Number
import GoScaffold.Toml.Value

set_option autoImplicit false

/-! # TOML scalars

Booleans, numbers, dates and times are words without quotes. A word is one of them as a whole or
none at all. -/

namespace GoScaffold.Toml.Scalar

/-! ## Dates and times -/

/-- A number of exactly two digits, from `low` to `high`. -/
def isPair (low high : Nat) (cs : List Char) : Bool :=
  match Text.number? 10 cs with
  | some n => cs.length == 2 && decide (low ≤ n) && decide (n ≤ high)
  | none => false

/-- How many days a month has. -/
def daysIn (year month : Nat) : Nat :=
  if month = 2 then if (year % 4 = 0 ∧ year % 100 ≠ 0) ∨ year % 400 = 0 then 29 else 28
  else if month = 4 ∨ month = 6 ∨ month = 9 ∨ month = 11 then 30
  else 31

/-- A date. -/
def isDate (cs : List Char) : Bool :=
  match Text.splitWhere (· == '-') cs with
  | [year, month, day] =>
    year.length == 4
      && match Text.number? 10 year, Text.number? 10 month with
        | some y, some m => isPair 1 12 month && isPair 1 (daysIn y m) day
        | _, _ => false
  | _ => false

/-- A time of the day. -/
def isTime (cs : List Char) : Bool :=
  match Text.splitWhere (· == ':') cs with
  | [hour, minute, second] =>
    isPair 0 23 hour && isPair 0 59 minute && isPair 0 60 (second.take 2)
      && match second.drop 2 with
        | [] => true
        | '.' :: fraction => !fraction.isEmpty && fraction.all (Text.isDigitOf 10)
        | _ => false
  | _ => false

/-- The distance of a clock from that of the zero meridian. -/
def isOffset (cs : List Char) : Bool :=
  match cs with
  | ['Z'] => true
  | ['z'] => true
  | c :: rest =>
    (c == '+' || c == '-')
      && match Text.splitWhere (· == ':') rest with
        | [hour, minute] => isPair 0 23 hour && isPair 0 59 minute
        | _ => false
  | [] => false

/-- A time of the day, perhaps with an offset. -/
def isClock (cs : List Char) : Bool :=
  let time := cs.takeWhile fun c => c != 'Z' && c != 'z' && c != '+' && c != '-'
  let offset := cs.drop time.length
  isTime time && (offset.isEmpty || isOffset offset)

/-- A date, a time, or a date with a time after a `T` or a space. -/
def isMoment (cs : List Char) : Bool :=
  isDate cs || isTime cs
    || (isDate (cs.take 10)
      && match cs.drop 10 with
        | c :: clock => (c == 'T' || c == 't' || c == ' ') && isClock clock
        | [] => false)

/-! ## Words -/

/-- A character of a word. -/
def isWordPart (c : Char) : Bool :=
  c.isAlphanum || c == '_' || c == '+' || c == '-' || c == '.' || c == ':'

/-- The word at the front of a text, and what follows it. A space inside a word only stands between
a date and a time. -/
def word (cs : List Char) : List Char × List Char :=
  let first := cs.takeWhile isWordPart
  let rest := cs.drop first.length
  match isDate first, rest with
  | true, ' ' :: d :: after =>
    if d.isDigit then
      let second := (d :: after).takeWhile isWordPart
      (first ++ ' ' :: second, (d :: after).drop second.length)
    else (first, rest)
  | _, _ => (first, rest)

/-- The value of a word. -/
def ofWord? (cs : List Char) : Option Value :=
  if cs == "true".toList then some (.truth true)
  else if cs == "false".toList then some (.truth false)
  else if Number.isInteger cs || Number.isFloat cs then some (.number (String.ofList cs))
  else if isMoment cs then some (.moment (String.ofList cs))
  else none

end GoScaffold.Toml.Scalar
