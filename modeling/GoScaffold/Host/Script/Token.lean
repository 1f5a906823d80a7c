import GoScaffold.Host.Script.Basic
import GoScaffold.Text.Cut

set_option autoImplicit false

/-! # Tokens of shell scripts

A script is cut into words and the signs between them. Blanks end words outside quotes; a backslash
takes the meaning from the next character. -/

namespace GoScaffold.Script

/-- A token of a script. -/
inductive Token
  | word (w : Word)
  | newline
  | semicolon
  | doubleSemicolon
  | andThen
  | orElse
  | bar
  | opening
  | closing
  /-- The redirection of the output or the error to a file; its path follows. -/
  | redirect (isError append : Bool)
  /-- The redirection of the output or the error to where the other one goes. -/
  | duplicate (isError toError : Bool)

/-- Tokens and their lines. -/
abbrev Tokens := List (Nat × Token)

/-! ## Words -/

/-- A character of the name of a variable. -/
def isNamePart (c : Char) : Bool := c.isAlphanum || c == '_'

/-- Whether this is the name of a variable. -/
def isName (cs : List Char) : Bool :=
  cs.all isNamePart && (cs.head?.map fun c => !c.isDigit).getD false

/-- A parameter whose name is one sign. -/
def isSpecial (c : Char) : Bool := c == '@' || c == '*' || c == '#' || c == '?' || c.isDigit

/-- The name of a parameter in braces, and what follows it. -/
def bracedName? : List Char → Option (String × List Char)
  | [] => none
  | c :: cs =>
    if c.isDigit then
      let name := (c :: cs).takeWhile Char.isDigit
      some (String.ofList name, (c :: cs).drop name.length)
    else if isSpecial c then some (c.toString, cs)
    else
      let name := (c :: cs).takeWhile isNamePart
      if name.isEmpty then none else some (String.ofList name, (c :: cs).drop name.length)

/-- What ends a word outside quotes. -/
def isBreak (c : Char) : Bool :=
  c == ' ' || c == '\t' || c == '\n' || c == ';' || c == '&' || c == '|' || c == '>' || c == '<'
    || c == '(' || c == ')'

/-- The text up to the closing sign of the one before it, and what follows; `depth` counts the open
ones. -/
def inside? (opening closing : Char) : (depth : Nat) → List Char → Option (List Char × List Char)
  | _, [] => none
  | depth, c :: cs =>
    if c = closing then
      match depth with
      | 0 => some ([], cs)
      | depth + 1 => (inside? opening closing depth cs).map fun (text, rest) => (c :: text, rest)
    else
      (inside? opening closing (if c = opening then depth + 1 else depth) cs).map
        fun (text, rest) => (c :: text, rest)

/-- Puts a part before others; literal parts of one kind become one. -/
def put (p : Piece) (w : Word) : Word :=
  match p, w with
  | .literal s q, .literal t r :: rest =>
    if q = r then .literal (s ++ t) q :: rest else p :: w
  | _, _ => p :: w

mutual

/-- The parts of a word up to a character that stops it, or to the end, and what follows. -/
def pieces? : (fuel : Nat) → (stop : Char → Bool) → (quoted : Bool) → List Char →
    Option (Word × List Char)
  | 0, _, _, _ => none
  | _ + 1, _, _, [] => some ([], [])
  | fuel + 1, stop, quoted, c :: cs => do
    if stop c then return ([], c :: cs)
    let (first, rest) ← piece? fuel quoted c cs
    let (others, rest) ← pieces? fuel stop quoted rest
    return (first.foldr put others, rest)

/-- What a character and those after it begin with. -/
def piece? : (fuel : Nat) → (quoted : Bool) → Char → List Char → Option (Word × List Char)
  | 0, _, _, _ => none
  | fuel + 1, quoted, c, cs =>
    match c, cs with
    | '$', '(' :: '(' :: cs => do
      let (text, rest) ← inside? '(' ')' 1 cs
      let (w, _) ← pieces? fuel (fun _ => false) true (text.take (text.length - 1))
      return ([.sum w quoted], rest)
    | '$', '\x7b' :: cs => do
      let (text, rest) ← inside? '\x7b' '\x7d' 0 cs
      return ([← braced? fuel quoted text], rest)
    | '$', d :: rest =>
      if isSpecial d then some ([.parameter d.toString .value quoted], rest)
      else
        let name := (d :: rest).takeWhile isNamePart
        if d = '(' then none
        else if name.isEmpty then some ([.literal "$" quoted], d :: rest)
        else some ([.parameter (String.ofList name) .value quoted], (d :: rest).drop name.length)
    | '\\', '\n' :: rest => some ([], rest)
    | '\\', d :: rest =>
      let escapes := !quoted || d == '"' || d == '\\' || d == '$' || d.toNat == 0x60
      if escapes then some ([.literal d.toString true], rest)
      else some ([.literal (String.ofList [c, d]) true], rest)
    | _, _ =>
      if c.toNat = 0x60 then none
      else if !quoted && c == '"' then do
        let (w, rest) ← pieces? fuel (· == '"') true cs
        let '"' :: rest := rest | none
        return (if w.isEmpty then [.literal "" true] else w, rest)
      else if !quoted && c == '\'' then
        (Text.splitOnce '\'' cs).map fun (text, rest) =>
          ([.literal (String.ofList text) true], rest)
      else some ([.literal c.toString quoted], cs)

/-- A parameter by the text between its braces. -/
def braced? : (fuel : Nat) → (quoted : Bool) → List Char → Option Piece
  | 0, _, _ => none
  | fuel + 1, quoted, text => do
    let whole (cs : List Char) : Option Word := do
      let (w, _) ← pieces? fuel (fun _ => false) quoted cs
      return w
    let (name, rest) ← bracedName? text
    match name, rest with
    | "#", _ :: _ =>
      let (name, rest) ← bracedName? rest
      if rest.isEmpty then return .parameter name .size quoted else none
    | _, [] => return .parameter name .value quoted
    | _, ':' :: '-' :: w => return .parameter name (.orElse true (← whole w)) quoted
    | _, '-' :: w => return .parameter name (.orElse false (← whole w)) quoted
    | _, ':' :: '+' :: w => return .parameter name (.instead true (← whole w)) quoted
    | _, '+' :: w => return .parameter name (.instead false (← whole w)) quoted
    | _, '%' :: '%' :: w => return .parameter name (.without true true (← pattern fuel w)) quoted
    | _, '%' :: w => return .parameter name (.without true false (← pattern fuel w)) quoted
    | _, '#' :: '#' :: w => return .parameter name (.without false true (← pattern fuel w)) quoted
    | _, '#' :: w => return .parameter name (.without false false (← pattern fuel w)) quoted
    | _, _ => none
where
  /-- A pattern, whatever quotes the parameter is in. -/
  pattern (fuel : Nat) (cs : List Char) : Option Word := do
    let (w, _) ← pieces? fuel (fun _ => false) false cs
    return w

end

/-! ## Scripts -/

/-- The sign at the front of a text that is not the start of a word. -/
def sign? : List Char → Option (Token × List Char)
  | '\n' :: rest => some (.newline, rest)
  | ';' :: ';' :: rest => some (.doubleSemicolon, rest)
  | ';' :: rest => some (.semicolon, rest)
  | '&' :: '&' :: rest => some (.andThen, rest)
  | '|' :: '|' :: rest => some (.orElse, rest)
  | '|' :: rest => some (.bar, rest)
  | '(' :: rest => some (.opening, rest)
  | ')' :: rest => some (.closing, rest)
  | '2' :: '>' :: rest => redirection true rest
  | '1' :: '>' :: rest => redirection false rest
  | '>' :: rest => redirection false rest
  | _ => none
where
  /-- The redirection whose sign stands before the text. -/
  redirection (isError : Bool) : List Char → Option (Token × List Char)
    | '&' :: '1' :: rest => some (.duplicate isError false, rest)
    | '&' :: '2' :: rest => some (.duplicate isError true, rest)
    | '>' :: rest => some (.redirect isError true, rest)
    | '|' :: rest => some (.redirect isError false, rest)
    | rest => some (.redirect isError false, rest)

/-- The tokens of a script from a line on. -/
def tokens? : (fuel line : Nat) → List Char → Option Tokens
  | 0, _, _ => none
  | _ + 1, _, [] => some []
  | fuel + 1, line, c :: cs =>
    if c = ' ' ∨ c = '\t' then tokens? fuel line cs
    else if c = '#' then tokens? fuel line (cs.dropWhile (· != '\n'))
    else
      match c, cs with
      | '\\', '\n' :: rest => tokens? fuel (line + 1) rest
      | _, _ =>
        match sign? (c :: cs) with
        | some (t, rest) =>
          (tokens? fuel (if c = '\n' then line + 1 else line) rest).map ((line, t) :: ·)
        | none => do
          if isBreak c then none
          let (w, rest) ← pieces? (2 * cs.length + 4) isBreak false (c :: cs)
          let taken := cs.take (cs.length - rest.length)
          let more ← tokens? fuel (line + taken.count '\n') rest
          return (line, .word w) :: more

end GoScaffold.Script
