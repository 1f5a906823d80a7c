import GoScaffold.Text.Blank
import GoScaffold.Text.Digits
import GoScaffold.Text.Lines

set_option autoImplicit false

/-! # Ranges of lines

A range names its first and its last line, counted from one. Line numbers are words of 64 bits, and
so are the two counts that selecting computes from them: how many lines are left out before the
range, and how many the range has. -/

namespace GoScaffold

/-- The lines from `first` to `last`, both included. -/
structure LineRange where
  first : UInt64
  last : UInt64
  first_ne_zero : first ≠ 0
  first_le_last : first ≤ last
  deriving DecidableEq, Repr

namespace LineRange

/-- Why a text is no range. -/
inductive Refusal
  /-- There is no colon. -/
  | noColon (text : String)
  /-- What stands before the colon is no line number. -/
  | badFirst (start : String)
  /-- What stands after the colon is no line number. -/
  | badLast (stop : String)
  /-- The range starts at line zero or ends before it starts. -/
  | emptyRange (text : String)
  deriving DecidableEq, Repr

/-- The wording of a refusal. -/
def Refusal.message : Refusal → String
  | .noColon text => "expected A:B, got `" ++ text ++ "`"
  | .badFirst start => "invalid start line `" ++ start ++ "`"
  | .badLast stop => "invalid end line `" ++ stop ++ "`"
  | .emptyRange text => "invalid line range `" ++ text ++ "`"

/-- The text without one plus sign at its front. -/
def dropPlus : List Char → List Char
  | '+' :: cs => cs
  | cs => cs

/-- A line number: decimal digits after an optional plus sign, with white space around. It has to
fit a word. -/
def lineNumber? (cs : List Char) : Option UInt64 :=
  match Text.number? 10 (dropPlus (Text.trimBlank cs)) with
  | some n => if n < UInt64.size then some (UInt64.ofNat n) else none
  | none => none

/-- The range from one line to another. -/
def ofBounds? (first last : UInt64) : Option LineRange :=
  if h : first ≠ 0 ∧ first ≤ last then some ⟨first, last, h.1, h.2⟩ else none

/-- Reads `A:B`. -/
def parse (text : String) : Except Refusal LineRange :=
  match Text.splitOnce ':' text.toList with
  | none => .error (.noColon text)
  | some (start, stop) =>
    match lineNumber? start, lineNumber? stop with
    | none, _ => .error (.badFirst (String.ofList start))
    | _, none => .error (.badLast (String.ofList stop))
    | some first, some last =>
      match ofBounds? first last with
      | some range => .ok range
      | none => .error (.emptyRange text)

/-- How many lines stand before the range. -/
def before (r : LineRange) : UInt64 := r.first - 1

/-- How many lines the range has. The sum is taken first and wraps at the greatest word. -/
def count (r : LineRange) : UInt64 := r.last + 1 - r.first

/-- The lines of a text that are in the range, each followed by one line feed. -/
def select (r : LineRange) (text : List Char) : List Char :=
  Text.unlines (((Text.lines text).drop r.before.toNat).take r.count.toNat)

end LineRange

end GoScaffold
