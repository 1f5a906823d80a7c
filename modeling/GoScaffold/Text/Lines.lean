import GoScaffold.Text.Cut

set_option autoImplicit false

/-! # Lines

A line ends at a line feed; one carriage return right before it belongs to the end and is dropped.
After the last line feed there is a line only if something stands there, and that one keeps a
trailing carriage return. -/

namespace GoScaffold.Text

/-- Carriage returns, alone or before a line feed, become line feeds. -/
def unifyNewlines : List Char → List Char
  | [] => []
  | '\r' :: '\n' :: cs => '\n' :: unifyNewlines cs
  | '\r' :: cs => '\n' :: unifyNewlines cs
  | c :: cs => c :: unifyNewlines cs

/-- Only the pair of a carriage return and a line feed becomes a line feed. -/
def unifyPairs : List Char → List Char
  | [] => []
  | '\r' :: '\n' :: cs => '\n' :: unifyPairs cs
  | c :: cs => c :: unifyPairs cs

/-- The line without one carriage return at its end. -/
def dropReturn (line : List Char) : List Char := (dropLastChar? '\r' line).getD line

/-- The pieces between line feeds, all but the last being ended lines. -/
def lineEnds : List (List Char) → List (List Char)
  | [] => []
  | [last] => if last.isEmpty then [] else [last]
  | line :: rest => dropReturn line :: lineEnds rest

/-- The lines of a text. -/
def lines (cs : List Char) : List (List Char) := lineEnds (splitWhere (· == '\n') cs)

/-- Each line followed by one line feed. -/
def unlines (ls : List (List Char)) : List Char := ls.flatMap (· ++ ['\n'])

end GoScaffold.Text
