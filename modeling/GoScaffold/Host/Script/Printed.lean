import GoScaffold.Host.Script.Sum

set_option autoImplicit false

/-! # Printed text of shell scripts

The commands `echo` and `printf` read backslashes in what they print; the second one fills its fields
into a format. -/

namespace GoScaffold.Script

/-- What letters stand for after a backslash. -/
def escapes : List (Char × Char) := [
    ('a', '\x07'), ('b', '\x08'), ('f', '\x0c'), ('n', '\n'), ('r', '\r'), ('t', '\t'),
    ('v', '\x0b'), ('\\', '\\')]

/-- The digits in base eight at the front of a text that name a character, and how many characters
they take; `zeroed` says that a zero stands before them. -/
def octal? (zeroed : Bool) (cs : List Char) : Option (Char × Nat) :=
  let digits := ((if zeroed then cs.drop 1 else cs).take 3).takeWhile (Text.isDigitOf 8)
  let starts := if zeroed then cs.head? == some '0' else !digits.isEmpty
  if !starts then none
  else
    some (Char.ofNat (Text.ofDigits 8 digits % 256),
      if zeroed then digits.length + 1 else digits.length)

/-- A text whose backslashes are read, and whether the output ends there. The first `skipped`
characters belong to what was read before. -/
def unescaped (zeroed : Bool) : (skipped : Nat) → List Char → List Char × Bool
  | _, [] => ([], false)
  | skipped + 1, _ :: cs => unescaped zeroed skipped cs
  | 0, '\\' :: cs =>
    match octal? zeroed cs, cs.head?.bind (escapes.lookup ·) with
    | some (c, size), _ => put c (unescaped zeroed size cs)
    | none, some c => put c (unescaped zeroed 1 cs)
    | none, none => if cs.head? = some 'c' then ([], true) else put '\\' (unescaped zeroed 0 cs)
  | 0, c :: cs => put c (unescaped zeroed 0 cs)
where
  /-- Puts a character before a text. -/
  put (c : Char) (r : List Char × Bool) : List Char × Bool := (c :: r.1, r.2)

/-- The text that `echo` prints. -/
def echoed : List String → String
  | "-n" :: fields => String.ofList (unescaped true 0 (Text.join " " fields).toList).1
  | fields =>
    let (text, ends) := unescaped true 0 (Text.join " " fields).toList
    String.ofList (if ends then text else text ++ ['\n'])

/-- A text that is made as wide as asked for. -/
def padded (left zeros : Bool) (width : Nat) (cs : List Char) : List Char :=
  let gap := List.replicate (width - cs.length) (if zeros && !left then '0' else ' ')
  if left then cs ++ gap else gap ++ cs

/-- A text by a format, and how many fields it used. A directive is a percent sign, flags, a width,
perhaps the places after a dot, and a letter. -/
def formatted : (fuel : Nat) → List Char → List String → List Char × Nat
  | 0, _, _ => ([], 0)
  | _ + 1, [], _ => ([], 0)
  | fuel + 1, '%' :: '%' :: cs, fields =>
    let (text, used) := formatted fuel cs fields
    ('%' :: text, used)
  | fuel + 1, '%' :: cs, fields =>
    let flags := cs.takeWhile fun c => c == '-' || c == '0'
    let cs := cs.drop flags.length
    let digits := cs.takeWhile Char.isDigit
    let cs := cs.drop digits.length
    let places? := match cs with
      | '.' :: more => some (more.takeWhile Char.isDigit)
      | _ => none
    let cs := match places? with
      | some places => cs.drop (places.length + 1)
      | none => cs
    let field := (fields.head?.getD "").toList
    let number := (Sum.integer? field).getD 0
    let shown := match cs.head?, places? with
      | some 's', some places => field.take (Text.ofDigits 10 places)
      | some 's', none => field
      | some 'b', _ => (unescaped true 0 field).1
      | some 'c', _ => field.take 1
      | some 'x', _ => Nat.toDigits 16 number.toNat
      | some 'o', _ => Nat.toDigits 8 number.toNat
      | _, _ => (toString number).toList
    let shown := padded (flags.contains '-') (flags.contains '0') (Text.ofDigits 10 digits) shown
    let (text, used) := formatted fuel (cs.drop 1) (fields.drop 1)
    (shown ++ text, used + 1)
  | fuel + 1, c :: cs, fields =>
    let (text, used) := formatted fuel cs fields
    (c :: text, used)

/-- The output of `printf`: the format as often as there are fields for it. -/
def printed (format : List Char) : (fuel : Nat) → List String → List Char
  | 0, _ => []
  | fuel + 1, fields =>
    let (text, used) := formatted (format.length + 1) format fields
    let rest := fields.drop used
    if used = 0 ∨ rest.isEmpty then text else text ++ printed format fuel rest

end GoScaffold.Script
