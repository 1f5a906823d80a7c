import GoScaffold.Text.Cut

set_option autoImplicit false

/-! # String literals

Interpreted string literals of Go. Quotes, backslashes and the usual control characters have escapes
of their own; other control characters, invisible marks and line separators are written by their
code points. -/

namespace GoScaffold.Go

/-- A hexadecimal digit in lower case. -/
def hexDigit (n : Nat) : Char := if n < 10 then Char.ofNat (48 + n) else Char.ofNat (87 + n)

/-- The last `places` hexadecimal digits of a number. -/
def hex : Nat → Nat → List Char
  | 0, _ => []
  | places + 1, n => hex places (n / 16) ++ [hexDigit (n % 16)]

/-- A control character. -/
def isControl (c : Char) : Bool :=
  decide (c.toNat < 0x20) || (decide (0x7F ≤ c.toNat) && decide (c.toNat ≤ 0x9F))

/-- A character that shows no mark of its own: zero-width characters, separators of lines and
paragraphs, and the byte order mark. -/
def isInvisible (c : Char) : Bool :=
  (decide (0x200B ≤ c.toNat) && decide (c.toNat ≤ 0x200F)) || c.toNat == 0x2028
    || c.toNat == 0x2029 || c.toNat == 0xFEFF

/-- A character as it stands in a literal. -/
def escape (c : Char) : List Char :=
  if c = '"' then ['\\', '"']
  else if c = '\\' then ['\\', '\\']
  else if c = '\n' then ['\\', 'n']
  else if c = '\r' then ['\\', 'r']
  else if c = '\t' then ['\\', 't']
  else if isControl c ∧ c.toNat < 0x80 then '\\' :: 'x' :: hex 2 c.toNat
  else if isControl c ∨ isInvisible c then '\\' :: 'u' :: hex 4 c.toNat
  else [c]

/-- The literal of a text. -/
def quoteChars (cs : List Char) : List Char := '"' :: (cs.flatMap escape ++ ['"'])

/-- The literal of a string. -/
def quote (s : String) : String := Text.onChars quoteChars s

end GoScaffold.Go
