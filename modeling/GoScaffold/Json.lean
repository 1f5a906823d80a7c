import GoScaffold.Go.Literal

set_option autoImplicit false

/-! # JSON

The values of sample requests and answers, written on one line or over several. Members keep their
order. -/

namespace GoScaffold

/-- A JSON value. -/
inductive Json
  | bool (b : Bool)
  /-- A number by its digits. -/
  | number (digits : String)
  | text (s : String)
  | array (items : List Json)
  | object (members : List (String × Json))

namespace Json

/-- A character as it stands in a JSON string. -/
def escape (c : Char) : List Char :=
  if c = '"' then ['\\', '"']
  else if c = '\\' then ['\\', '\\']
  else if c = '\n' then ['\\', 'n']
  else if c = '\r' then ['\\', 'r']
  else if c = '\t' then ['\\', 't']
  else if c = '\x08' then ['\\', 'b']
  else if c = '\x0c' then ['\\', 'f']
  else if c.toNat < 0x20 then '\\' :: 'u' :: Go.hex 4 c.toNat
  else [c]

/-- A JSON string. -/
def quote (s : String) : String :=
  Text.onChars (fun cs => '"' :: (cs.flatMap escape ++ ['"'])) s

/-- What a value that holds no other is written as. -/
def leaf : Json → String
  | .bool b => if b then "true" else "false"
  | .number digits => digits
  | .text s => quote s
  | .array _ => "[]"
  | .object _ => "\x7b\x7d"

mutual

/-- The value on one line. -/
def compact : Json → String
  | .array (item :: rest) => "[" ++ compact item ++ compactItems rest ++ "]"
  | .object ((name, v) :: rest) =>
    "\x7b" ++ quote name ++ ":" ++ compact v ++ compactMembers rest ++ "\x7d"
  | v => leaf v

/-- Items after the first. -/
def compactItems : List Json → String
  | [] => ""
  | item :: rest => "," ++ compact item ++ compactItems rest

/-- Members after the first. -/
def compactMembers : List (String × Json) → String
  | [] => ""
  | (name, v) :: rest => "," ++ quote name ++ ":" ++ compact v ++ compactMembers rest

end

/-- The start of a line at a depth of two spaces each. -/
def margin (depth : Nat) : String := "\n" ++ String.ofList (List.replicate (2 * depth) ' ')

mutual

/-- The value over several lines, at a depth. -/
def pretty (depth : Nat) : Json → String
  | .array (item :: rest) =>
    "[" ++ margin (depth + 1) ++ pretty (depth + 1) item ++ prettyItems (depth + 1) rest
      ++ margin depth ++ "]"
  | .object ((name, v) :: rest) =>
    "\x7b" ++ margin (depth + 1) ++ quote name ++ ": " ++ pretty (depth + 1) v
      ++ prettyMembers (depth + 1) rest ++ margin depth ++ "\x7d"
  | v => leaf v

/-- Items after the first. -/
def prettyItems (depth : Nat) : List Json → String
  | [] => ""
  | item :: rest => "," ++ margin depth ++ pretty depth item ++ prettyItems depth rest

/-- Members after the first. -/
def prettyMembers (depth : Nat) : List (String × Json) → String
  | [] => ""
  | (name, v) :: rest =>
    "," ++ margin depth ++ quote name ++ ": " ++ pretty depth v ++ prettyMembers depth rest

end

/-- Sets a member: a name that is there keeps its place and takes the new value. -/
def set (members : List (String × Json)) (name : String) (v : Json) : List (String × Json) :=
  match members with
  | [] => [(name, v)]
  | (n, w) :: rest => if n = name then (n, v) :: rest else (n, w) :: set rest name v

end Json

end GoScaffold
