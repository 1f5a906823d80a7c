import GoScaffold.Host.Fault
import GoScaffold.Text.Lines

set_option autoImplicit false

/-! # Typed input

Text that is typed in, or piped, ends with the input or with a line that says `EOF`. It comes as
lines of bytes, the line feed of each included; a line that is not UTF-8 is a fault, but lines after
the end are never looked at. -/

namespace GoScaffold.Input

/-- The line that ends the input. -/
def terminator : List Char := "EOF".toList

/-- The lines of some bytes, each but the last with its line feed. -/
def pieces (bytes : List UInt8) : List (List UInt8) :=
  match Text.splitWhere (· == 10) bytes with
  | [] => []
  | last :: rest => ended last rest
where
  /-- The first piece and those that follow it. -/
  ended (piece : List UInt8) : List (List UInt8) → List (List UInt8)
    | [] => if piece.isEmpty then [] else [piece]
    | next :: rest => (piece ++ [10]) :: ended next rest

/-- A line as characters, without its line feed and one carriage return before that. -/
def lineText? (piece : List UInt8) : Option (List Char) :=
  (String.fromUTF8? ⟨piece.toArray⟩).map fun s =>
    match Text.dropLastChar? '\n' s.toList with
    | some line => Text.dropReturn line
    | none => s.toList

/-- Whether a line ends the input; carriage returns at its end do not count. -/
def isTerminator (line : List Char) : Bool := Text.dropEndWhile (· == '\r') line == terminator

/-- Whether nothing after this line is read: it ends the input, or it is not text. -/
def isLast (piece : List UInt8) : Bool :=
  match lineText? piece with
  | none => true
  | some line => isTerminator line

/-- The lines before the end of the input. -/
def typedLines : List (List UInt8) → Except Fault (List (List Char))
  | [] => .ok []
  | piece :: rest =>
    match lineText? piece with
    | none => .error .notText
    | some line => if isTerminator line then .ok [] else (typedLines rest).map (line :: ·)

/-- The text of typed input, given by its lines: each line is followed by a line feed. -/
def typedText (input : List (List UInt8)) : Except Fault String :=
  (typedLines input).map fun ls => String.ofList (Text.unlines ls)

end GoScaffold.Input
