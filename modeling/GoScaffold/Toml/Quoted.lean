import GoScaffold.Text.Cut
import GoScaffold.Text.Digits

set_option autoImplicit false

/-! # TOML strings

Basic strings stand in double quotes and know escapes, literal strings stand in single quotes and
know none; tripled quotes let either run over several lines. Each reader starts after the opening
quotes and gives the string and what follows its closing quotes. -/

namespace GoScaffold.Toml.Quoted

/-- Whether the character may stand inside a line: a tab, or no control character. -/
def isInline (c : Char) : Bool := c == '\t' || (decide (0x20 ≤ c.toNat) && c.toNat != 0x7F)

/-- What the letter after a backslash stands for. -/
def named? : Char → Option Char
  | 'b' => some '\x08'
  | 't' => some '\t'
  | 'n' => some '\n'
  | 'f' => some '\x0c'
  | 'r' => some '\r'
  | '"' => some '"'
  | '\\' => some '\\'
  | _ => none

/-- The character with this number, if there is one. -/
def ofNumber? (n : Nat) : Option Char := if n.isValidChar then some (Char.ofNat n) else none

/-- Where the reader of a basic string is. -/
inductive Mode
  | plain
  /-- After a backslash. -/
  | escape
  /-- Within the number of a character; `left` digits follow the next one. -/
  | number (value left : Nat)
  /-- After a backslash that joins two lines, still on the first. -/
  | lineEnd
  /-- After a backslash that joins two lines, before the text of the second. -/
  | lineStart

/-- Whether a line ends here, given the character and what follows it. -/
def endsLine (c : Char) (rest : List Char) : Bool :=
  c == '\n' || (c == '\r' && rest.head? == some '\n')

/-- Up to two more quotes right after the closing ones belong to the string. -/
def closing (quote : Char) : List Char → List Char × List Char
  | c :: d :: rest =>
    if c = quote then if d = quote then ([c, d], rest) else ([c], d :: rest) else ([], c :: d :: rest)
  | [c] => if c = quote then ([c], []) else ([], [c])
  | [] => ([], [])

/-- What a reader does with a character. -/
inductive Step
  /-- It goes on, perhaps with a character of the string. -/
  | next (c : Option Char) (mode : Mode)
  /-- The string ends with some characters; others follow it. -/
  | done (s rest : List Char)
  | fail

/-- A character that ends a string, or a character of the string if it ends with three of them. -/
def stepQuote (multi : Bool) (quote : Char) (cs : List Char) : Step :=
  if !multi then .done [] cs
  else
    match Text.dropPrefix? [quote, quote] cs with
    | some rest => .done (closing quote rest).1 (closing quote rest).2
    | none => .next (some quote) .plain

/-- A character that is none of the special ones. -/
def stepText (multi : Bool) (c : Char) (cs : List Char) : Step :=
  if isInline c || (multi && c == '\n') then .next (some c) .plain
  else if multi && endsLine c cs then .next none .plain
  else .fail

/-- A character between a backslash and the end of its line. -/
def stepLineEnd (c : Char) (cs : List Char) : Step :=
  if c = '\n' then .next none .lineStart
  else if c = ' ' ∨ c = '\t' ∨ endsLine c cs then .next none .lineEnd
  else .fail

/-- A digit of the number of a character. -/
def stepNumber (value left : Nat) (c : Char) : Step :=
  if !Text.isDigitOf 16 c then .fail
  else
    let value := 16 * value + Text.digitValue c
    match left with
    | left + 1 => .next none (.number value left)
    | 0 =>
      match ofNumber? value with
      | some d => .next (some d) .plain
      | none => .fail

/-- A character of a basic string, and what follows it. -/
def step (multi : Bool) (mode : Mode) (c : Char) (cs : List Char) : Step :=
  match mode with
  | .number value left => stepNumber value left c
  | .escape =>
    if c = 'u' then .next none (.number 0 3)
    else if c = 'U' then .next none (.number 0 7)
    else
      match named? c with
      | some d => .next (some d) .plain
      | none => if multi then stepLineEnd c cs else .fail
  | .lineEnd => stepLineEnd c cs
  | mode =>
    let atStart := match mode with
      | .lineStart => c == ' ' || c == '\t' || endsLine c cs
      | _ => false
    if atStart then .next none .lineStart
    else if c = '\\' then .next none .escape
    else if c = '"' then stepQuote multi '"' cs
    else stepText multi c cs

/-- A character of a literal string, and what follows it. -/
def stepLiteral (multi : Bool) (c : Char) (cs : List Char) : Step :=
  if c = '\'' then stepQuote multi '\'' cs else stepText multi c cs

/-- Reads a string step by step. -/
def readBy (step : Mode → Char → List Char → Step) : Mode → List Char → Option (List Char × List Char)
  | _, [] => none
  | mode, c :: cs =>
    match step mode c cs with
    | .next none mode => readBy step mode cs
    | .next (some d) mode => (readBy step mode cs).map fun (s, rest) => (d :: s, rest)
    | .done s rest => some (s, rest)
    | .fail => none

/-- Reads a basic string, over several lines if `multi`. -/
def basic (multi : Bool) (cs : List Char) : Option (List Char × List Char) :=
  readBy (step multi) .plain cs

/-- Reads a literal string, over several lines if `multi`. -/
def literal (multi : Bool) (cs : List Char) : Option (List Char × List Char) :=
  readBy (fun _ => stepLiteral multi) .plain cs

/-- A line end right after the opening quotes is left out. -/
def dropFirstEnd : List Char → List Char
  | '\n' :: cs => cs
  | '\r' :: '\n' :: cs => cs
  | cs => cs

/-- Reads a string of one line, its opening quote included. -/
def line? : List Char → Option (List Char × List Char)
  | '"' :: cs => basic false cs
  | '\'' :: cs => literal false cs
  | _ => none

/-- Reads a string, its opening quotes included. -/
def string? (cs : List Char) : Option (List Char × List Char) :=
  match Text.dropPrefix? ['"', '"', '"'] cs, Text.dropPrefix? ['\'', '\'', '\''] cs with
  | some rest, _ => basic true (dropFirstEnd rest)
  | _, some rest => literal true (dropFirstEnd rest)
  | none, none => line? cs

end GoScaffold.Toml.Quoted
