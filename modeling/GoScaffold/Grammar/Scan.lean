import GoScaffold.Text.Cut

set_option autoImplicit false

/-! # Scanners

A scanner cuts one lexeme off the front of a text and hands back the lexeme and the rest, or fails.
The lexemes of table declarations are scanned in a copy of the text raised to ASCII capitals, so
keywords are spelled in capitals here. -/

namespace GoScaffold.Grammar

/-- A lexeme cut off the front of a text, and what follows it. -/
abbrev Scan := List Char → Option (List Char × List Char)

/-- The same cut with one more character at the front of the lexeme. -/
def behind (c : Char) (cut : Option (List Char × List Char)) : Option (List Char × List Char) :=
  cut.map fun (lexeme, rest) => (c :: lexeme, rest)

namespace Scan

/-! ## Building scanners -/

/-- Exactly this word. -/
def word (w : List Char) : Scan := fun cs =>
  (w.isPrefixOf? cs).map fun rest => (w, rest)

/-- One character that satisfies `p`. -/
def one (p : Char → Bool) : Scan
  | [] => none
  | c :: cs => if p c then some ([c], cs) else none

/-- The longest run of characters that satisfy `p`, perhaps empty. -/
def run (p : Char → Bool) : Scan := fun cs => some (cs.takeWhile p, cs.dropWhile p)

/-- One scanner after another. -/
def chain (a b : Scan) : Scan := fun cs =>
  match a cs with
  | none => none
  | some (lexeme, rest) => (b rest).map fun (next, rest) => (lexeme ++ next, rest)

/-- The first scanner, or the second where the first fails. -/
def either (a b : Scan) : Scan := fun cs => (a cs).or (b cs)

/-- The scanner, or an empty lexeme where it fails. -/
def maybe (a : Scan) : Scan := fun cs => some ((a cs).getD ([], cs))

/-- An empty lexeme where no character that satisfies `p` comes next. -/
def notBefore (p : Char → Bool) : Scan
  | [] => some ([], [])
  | c :: cs => if p c then none else some ([], c :: cs)

/-- An empty lexeme at the end of the text. -/
def atEnd : Scan
  | [] => some ([], [])
  | _ :: _ => none

/-- The scanners one after another. -/
def all : List Scan → Scan
  | [] => fun cs => some ([], cs)
  | a :: rest => chain a (all rest)

/-- The first scanner that does not fail. -/
def first : List Scan → Scan
  | [] => fun _ => none
  | a :: rest => either a (first rest)

/-- One or more characters that satisfy `p`. -/
def run1 (p : Char → Bool) : Scan := chain (one p) (run p)

/-! ## Blanks and comments -/

/-- The white space between tokens. -/
def isSpace (c : Char) : Bool := c == ' ' || c == '\t' || c == '\n' || c == '\r'

/-- What stands in a block comment after its opening, up to and with its end. -/
def blockEnd : Scan
  | [] => none
  | '*' :: '/' :: cs => some (['*', '/'], cs)
  | c :: cs => behind c (blockEnd cs)

/-- A comment: a closed block, or from `#` or `-- ` up to the end of the line. -/
def comment : Scan :=
  first [
    chain (word ['/', '*']) blockEnd,
    chain (either (word ['#']) (word ['-', '-', ' '])) (run (· != '\n'))]

/-- White space and comments, as much as there is; `pending` characters of a comment are still to
be taken. -/
def blanksFrom : Nat → List Char → List Char × List Char
  | _, [] => ([], [])
  | pending + 1, c :: cs =>
    let (taken, rest) := blanksFrom pending cs
    (c :: taken, rest)
  | 0, c :: cs =>
    if isSpace c then
      let (taken, rest) := blanksFrom 0 cs
      (c :: taken, rest)
    else
      match comment (c :: cs) with
      | some (lexeme, _) =>
        let (taken, rest) := blanksFrom (lexeme.length - 1) cs
        (c :: taken, rest)
      | none => ([], c :: cs)

/-- White space and comments, as much as there is. -/
def blanks (cs : List Char) : List Char × List Char := blanksFrom 0 cs

/-! ## Identifiers and keywords -/

/-- The characters of unquoted identifiers. -/
def isIdentChar (c : Char) : Bool := c.isAlphanum || c == '_' || c == '$' || decide (0x80 ≤ c.toNat)

/-- One of the words, and no identifier character after it. -/
def keyword (words : List String) : Scan :=
  chain (first (words.map fun w => word w.toList)) (notBefore isIdentChar)

/-- What stands in a quoted identifier after its opening, up to and with its end. -/
def backtickEnd : Scan
  | [] => none
  | [c] => if c = '`' then some (['`'], []) else none
  | c :: d :: cs =>
    if c = '`' then
      if d = '`' then behind '`' (behind '`' (backtickEnd cs)) else some (['`'], d :: cs)
    else behind c (backtickEnd (d :: cs))

/-- An identifier in backticks. -/
def quotedIdent : Scan := chain (word ['`']) backtickEnd

/-- An identifier without quotes. -/
def bareIdent : Scan := run1 isIdentChar

/-- An identifier of either form. -/
def identifier : Scan := either quotedIdent bareIdent

/-- The name of a type. -/
def typeName : Scan := chain (one Char.isAlpha) (run fun c => c.isAlphanum || c == '_')

/-! ## Literals -/

/-- What stands in a string after its opening `q`, up to and with its end. -/
def stringEnd (q : Char) : Scan
  | [] => none
  | [c] => if c = q then some ([q], []) else none
  | c :: d :: cs =>
    if c = '\\' then behind c (behind d (stringEnd q cs))
    else if c = q then
      if d = q then behind c (behind d (stringEnd q cs)) else some ([q], d :: cs)
    else behind c (stringEnd q (d :: cs))

/-- A string in single or double quotes. -/
def stringLiteral : Scan :=
  either (chain (word ['\'']) (stringEnd '\'')) (chain (word ['"']) (stringEnd '"'))

/-- A bit or hexadecimal string such as `B'1'`. -/
def bitLiteral : Scan :=
  all [one (fun c => c == 'B' || c == 'X'), word ['\''], run (· != '\''), word ['\'']]

/-- A sign. -/
def sign : Scan := one fun c => c == '-' || c == '+'

/-- A hexadecimal digit. -/
def isHexDigit (c : Char) : Bool :=
  c.isDigit || (decide ('a' ≤ c) && decide (c ≤ 'f')) || (decide ('A' ≤ c) && decide (c ≤ 'F'))

/-- A number: hexadecimal after `0X`, or decimal with a fraction and an exponent. -/
def number : Scan :=
  either (chain (word ['0', 'X']) (run1 isHexDigit))
    (chain
      (either
        (chain (run1 Char.isDigit) (maybe (chain (word ['.']) (run Char.isDigit))))
        (chain (word ['.']) (run1 Char.isDigit)))
      (maybe (all [word ['E'], maybe sign, run1 Char.isDigit])))

/-- A number with an optional sign. -/
def signedNumber : Scan := chain (maybe sign) number

/-- What stands in a parenthesised expression after its opening, up to and with its end. `depth`
inner parentheses are open, and `pending` characters of a string are still to be taken. A quote that
opens no complete string is an ordinary character. -/
def parenEnd : Nat → Nat → Scan
  | _, _, [] => none
  | pending + 1, depth, c :: cs => behind c (parenEnd pending depth cs)
  | 0, depth, c :: cs =>
    if c = '(' then behind c (parenEnd 0 (depth + 1) cs)
    else if c = ')' then
      match depth with
      | 0 => some ([c], cs)
      | depth + 1 => behind c (parenEnd 0 depth cs)
    else
      match stringLiteral (c :: cs) with
      | some (lexeme, _) => behind c (parenEnd (lexeme.length - 1) depth cs)
      | none => behind c (parenEnd 0 depth cs)

/-- A parenthesised expression; what stands in it is free but for parentheses and strings. -/
def parenExpr : Scan := chain (word ['(']) (parenEnd 0 0)

/-- The current time, with an optional precision in parentheses. -/
def currentTimestamp : Scan :=
  chain (keyword ["CURRENT_TIMESTAMP", "LOCALTIMESTAMP", "LOCALTIME", "NOW"])
    (maybe (all [run isSpace, word ['('], run isSpace, run Char.isDigit, run isSpace, word [')']]))

end Scan

end GoScaffold.Grammar
