import GoScaffold.Text.Blank

set_option autoImplicit false

/-! # Quoted identifiers and string literals

An identifier may stand in backticks, a backtick in it written twice. A string stands in single or
double quotes; a quote in it is written twice or after a backslash, and `\n`, `\t` and `\0` stand
for the line feed, the tab and the null character. -/

namespace GoScaffold.Sql

open Text

/-- Every `q` written twice. -/
def double (q : Char) (cs : List Char) : List Char :=
  cs.flatMap fun c => if c = q then [q, q] else [c]

/-- Every pair of `q` written once, pairs taken from the left. -/
def undouble (q : Char) : List Char → List Char
  | [] => []
  | [c] => [c]
  | c :: d :: cs => if c = q ∧ d = q then q :: undouble q cs else c :: undouble q (d :: cs)

/-- The name that an identifier spells. -/
def unquoteIdentifier (cs : List Char) : List Char :=
  let text := trimBlank cs
  match between? '`' '`' text with
  | some inner => undouble '`' inner
  | none => text

/-- The character that a backslash and `c` stand for. -/
def unescape (c : Char) : Char :=
  if c = 'n' then '\n' else if c = 't' then '\t' else if c = '0' then '\x00' else c

/-- The value of what stands between the quotes `q` of a string. -/
def decodeString (q : Char) : List Char → List Char
  | [] => []
  | [c] => [c]
  | c :: d :: cs =>
    if c = '\\' then unescape d :: decodeString q cs
    else if c = q ∧ d = q then q :: decodeString q cs
    else c :: decodeString q (d :: cs)

/-- The value of a string literal; a text that no quote begins is its own value. -/
def unquoteString (cs : List Char) : List Char :=
  match trimBlank cs with
  | [] => []
  | c :: rest =>
    if c = '\'' ∨ c = '"' then decodeString c ((between? c c (c :: rest)).getD (c :: rest))
    else c :: rest

/-- A value as it stands between the quotes `q` of a string: quotes and backslashes written twice. -/
def escape (q : Char) (cs : List Char) : List Char := double q (double '\\' cs)

/-- The string literal in the quotes `q` that spells a value. -/
def literal (q : Char) (cs : List Char) : List Char := q :: (escape q cs ++ [q])

/-- The name in backticks, as statements spell it. -/
def backticked (name : String) : String := "`" ++ name ++ "`"

end GoScaffold.Sql
