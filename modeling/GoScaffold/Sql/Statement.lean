import GoScaffold.Sql.Comment
import GoScaffold.Text.Ascii
import GoScaffold.Text.Blank

set_option autoImplicit false

/-! # Statements

Schema text is cut after every `;` that stands outside quotes and line comments. One scan from the
left decides: at most one quote or comment is open at a time, a backslash inside a string takes the
next character with it, and a doubled quote closes and opens again. What follows the last cut is a
statement too, also when a quote is left open; statements of nothing but white space and `;` are
dropped. -/

namespace GoScaffold.Sql

open Text

/-- The three quotes. -/
inductive Quote
  | backtick
  | single
  | double
  deriving DecidableEq, Repr

namespace Quote

/-- The character that opens and closes the quote. -/
def char : Quote → Char
  | .backtick => '`'
  | .single => '\''
  | .double => '"'

/-- The quote that a character opens. -/
def ofChar? (c : Char) : Option Quote :=
  if c = '`' then some .backtick
  else if c = '\'' then some .single
  else if c = '"' then some .double
  else none

/-- Strings know backslash escapes, identifiers do not. -/
def isString : Quote → Bool
  | .backtick => false
  | .single => true
  | .double => true

end Quote

/-- What the scan is inside of. -/
inductive Open
  | nothing
  | lineComment
  | quote (q : Quote)
  /-- Inside the string, right after a backslash. -/
  | escape (q : Quote)
  deriving DecidableEq, Repr

namespace Open

/-- What the scan is inside of after one more character. -/
def next : Open → Char → Open
  | .nothing, c =>
    if c = '#' then .lineComment
    else
      match Quote.ofChar? c with
      | some q => .quote q
      | none => .nothing
  | .lineComment, c => if c = '\n' then .nothing else .lineComment
  | .quote q, c =>
    if c = '\\' ∧ q.isString then .escape q
    else if c = q.char then .nothing
    else .quote q
  | .escape q, _ => .quote q

/-- What the scan is inside of after a text. -/
def after (o : Open) (cs : List Char) : Open := cs.foldl next o

end Open

/-- The text cut after every `;` outside quotes and comments; the last segment holds what remains
and may be empty. -/
def segmentsFrom (o : Open) : List Char → List (List Char)
  | [] => [[]]
  | c :: cs =>
    if o = .nothing ∧ c = ';' then [c] :: segmentsFrom .nothing cs
    else
      match segmentsFrom (o.next c) cs with
      | [] => [[c]]
      | segment :: rest => (c :: segment) :: rest

/-- Whether a segment holds anything besides white space and `;`. -/
def holdsText (segment : List Char) : Bool :=
  !(trimBlank (dropEndWhile (· == ';') (trimBlank segment))).isEmpty

/-- The statements of a schema text, each with its `;`. -/
def statements (text : List Char) : List (List Char) :=
  (segmentsFrom .nothing (stripComments text)).filter holdsText

/-! ## Table declarations -/

/-- The text after one or more ASCII blanks. -/
def afterBlanks? : List Char → Option (List Char)
  | [] => none
  | c :: cs => if isAsciiBlank c then some (cs.dropWhile isAsciiBlank) else none

/-- Whether the text begins with the word `TABLE` and no word character follows it. -/
def startsWithTable (cs : List Char) : Bool :=
  match dropPrefix? "TABLE".toList cs with
  | some (c :: _) => !isWordChar c
  | some [] => true
  | none => false

/-- Whether a statement declares a table: `CREATE`, perhaps `TEMPORARY`, and `TABLE`, in any case
and after any white space. -/
def isTableDeclaration (statement : List Char) : Bool :=
  match (dropPrefix? "CREATE".toList (raise (trimBlank statement))).bind afterBlanks? with
  | none => false
  | some rest =>
    startsWithTable rest ||
      match (dropPrefix? "TEMPORARY".toList rest).bind afterBlanks? with
      | none => false
      | some rest => startsWithTable rest

end GoScaffold.Sql
