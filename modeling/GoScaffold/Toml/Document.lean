import GoScaffold.Toml.Quoted
import GoScaffold.Toml.Scalar

set_option autoImplicit false

/-! # TOML documents

A document is a sequence of lines: headers, assignments, and lines with at most a comment. Reading
goes in two steps, from the text to the list of its expressions and from there to the table that
they describe; either may fail, and a failure has no wording. -/

namespace GoScaffold.Toml

/-- A line that says something. -/
inductive Expression
  /-- `[key]` -/
  | header (key : Key)
  /-- `[[key]]` -/
  | element (key : Key)
  /-- `key = value` -/
  | assignment (key : Key) (v : Value)

/-! ## Reading -/

/-- A blank within a line. -/
def isGap (c : Char) : Bool := c == ' ' || c == '\t'

/-- The text without blanks at its front. -/
def skipGap (cs : List Char) : List Char := cs.dropWhile isGap

/-- Drops blanks, line ends and comments. -/
def skipFiller : (inComment : Bool) → List Char → List Char
  | _, [] => []
  | inComment, c :: cs =>
    if c = '\n' then skipFiller false cs
    else if c = '\r' ∧ cs.head? = some '\n' then skipFiller inComment cs
    else if inComment then if Quoted.isInline c then skipFiller true cs else c :: cs
    else if isGap c then skipFiller false cs
    else if c = '#' then skipFiller true cs
    else c :: cs

/-- What follows the rest of a line that may hold only a comment. -/
def nextLine? (cs : List Char) : Option (List Char) :=
  let rest :=
    match skipGap cs with
    | '#' :: comment => comment.dropWhile Quoted.isInline
    | other => other
  match rest with
  | [] => some []
  | '\n' :: next => some next
  | '\r' :: '\n' :: next => some next
  | _ => none

/-- A character of a name without quotes. -/
def isBare (c : Char) : Bool := c.isAlphanum || c == '_' || c == '-'

/-- One name of a key. -/
def name? (cs : List Char) : Option (String × List Char) :=
  match cs.takeWhile isBare with
  | [] => (Quoted.line? cs).map fun (s, rest) => (String.ofList s, rest)
  | bare => some (String.ofList bare, cs.drop bare.length)

/-- The names of a key, with dots between them; at most `most` of them. -/
def names? : (most : Nat) → List Char → Option (List String × List Char)
  | 0, _ => none
  | most + 1, cs => do
    let (name, rest) ← name? (skipGap cs)
    match skipGap rest with
    | '.' :: more =>
      let (names, rest) ← names? most more
      return (name :: names, rest)
    | rest => return ([name], rest)

/-- How many names a key may have, and how deep lists and inline tables may be nested. -/
def deepest : Nat := 79

/-- A key and the blanks around it. -/
def key? (cs : List Char) : Option (Key × List Char) := do
  let (names, rest) ← names? deepest cs
  return (← Key.ofNames? names, rest)

mutual

/-- Reads a value; lists and inline tables in it are nested at most `depth` deep. -/
def value? : (fuel depth : Nat) → List Char → Option (Value × List Char)
  | 0, _, _ => none
  | _ + 1, _, [] => none
  | fuel + 1, depth, c :: cs =>
    if c = '[' then
      match depth with
      | 0 => none
      | depth + 1 => (items? fuel depth cs).map fun (items, rest) => (.list items, rest)
    else if c = '\x7b' then
      match depth with
      | 0 => none
      | depth + 1 => do
        let (assignments, rest) ←
          match skipGap cs with
          | '\x7d' :: rest => some ([], rest)
          | cs => members? fuel depth cs
        return (.table .inline (← Entries.assignAll? [] assignments), rest)
    else if c = '"' ∨ c = '\'' then
      (Quoted.string? (c :: cs)).map fun (s, rest) => (.text (String.ofList s), rest)
    else
      let (word, rest) := Scalar.word (c :: cs)
      (Scalar.ofWord? word).map fun v => (v, rest)

/-- Reads the items of a list up to its closing bracket. A comma may follow the last one. -/
def items? : (fuel depth : Nat) → List Char → Option (List Value × List Char)
  | 0, _, _ => none
  | fuel + 1, depth, cs =>
    match skipFiller false cs with
    | ']' :: rest => some ([], rest)
    | cs => do
      let (v, rest) ← value? fuel depth cs
      match skipFiller false rest with
      | ',' :: rest =>
        let (items, rest) ← items? fuel depth rest
        return (v :: items, rest)
      | ']' :: rest => return ([v], rest)
      | _ => none

/-- Reads the members of an inline table up to its closing brace. -/
def members? : (fuel depth : Nat) → List Char → Option (List (Key × Value) × List Char)
  | 0, _, _ => none
  | fuel + 1, depth, cs => do
    let (key, rest) ← key? cs
    let '=' :: rest := rest | none
    let (v, rest) ← value? fuel depth (skipGap rest)
    match skipGap rest with
    | ',' :: rest =>
      let (members, rest) ← members? fuel depth rest
      return ((key, v) :: members, rest)
    | '\x7d' :: rest => return ([(key, v)], rest)
    | _ => none

end

/-- Reads what one line says, up to the blanks after it. -/
def expression? (cs : List Char) : Option (Expression × List Char) := do
  match cs with
  | '[' :: '[' :: cs =>
    let (key, rest) ← key? cs
    let ']' :: ']' :: rest := rest | none
    return (.element key, rest)
  | '[' :: cs =>
    let (key, rest) ← key? cs
    let ']' :: rest := rest | none
    return (.header key, rest)
  | _ =>
    let (key, rest) ← key? cs
    let '=' :: rest := rest | none
    let cs := skipGap rest
    let (v, rest) ← value? (cs.length + 1) deepest cs
    return (.assignment key v, rest)

/-- The expressions of a document; `fuel` bounds how many. -/
def expressions? : (fuel : Nat) → List Char → Option (List Expression)
  | 0, _ => none
  | fuel + 1, cs =>
    match skipFiller false cs with
    | [] => some []
    | cs => do
      let (e, rest) ← expression? cs
      let es ← expressions? fuel (← nextLine? rest)
      return e :: es

/-! ## Meaning -/

/-- A document while it is read: its entries, and the table that assignments go to. -/
structure Progress where
  entries : Entries := []
  current : List String := []

/-- What an expression does. -/
def Expression.apply? (p : Progress) : Expression → Option Progress
  | .header key => (Entries.openTable? p.entries key).map fun es => ⟨es, key.way ++ [key.name]⟩
  | .element key => (Entries.openElement? p.entries key).map fun es => ⟨es, key.way ++ [key.name]⟩
  | .assignment key v =>
    (Entries.onHeaderWay (fun es => Entries.assign? es key v) p.current p.entries).map fun es =>
      { p with entries := es }

/-- The text without a byte order mark at its front. -/
def dropMark : List Char → List Char
  | '\uFEFF' :: cs => cs
  | cs => cs

/-- The table that a document describes. -/
def parse? (text : String) : Option Entries := do
  let cs := dropMark text.toList
  let es ← expressions? (cs.length + 1) cs
  let p ← es.foldlM Expression.apply? {}
  return p.entries

end GoScaffold.Toml
