import GoScaffold.Host.Script.Scope
import GoScaffold.Host.Session

set_option autoImplicit false

/-! # Tests of shell scripts

The command `test` asks about texts, numbers and files. What it asks depends on how many texts it is
given. -/

namespace GoScaffold.Script

/-- What a test says, or why it makes no sense. -/
abbrev Answer := Except String Bool

/-- A test of one text. -/
def asked (s : Session) (sign text : String) : Option Bool :=
  match sign with
  | "-n" => some !text.isEmpty
  | "-z" => some text.isEmpty
  | "-f" => some (s.hasFile text)
  | "-d" => some (s.hasDirectory text)
  | "-e" => some (s.lookup? text).isSome
  | "-r" => some (s.lookup? text).isSome
  | "-w" => some (s.lookup? text).isSome
  | "-x" => some <| match s.lookup? text with
    | some .directory => true
    | some (.file _ isProgram) => isProgram
    | _ => false
  | "-s" => some <| match s.lookup? text with
    | some .directory => true
    | some (.file content _) => decide (0 < content.size)
    | _ => false
  | "-h" => some false
  | "-L" => some false
  | _ => none

/-- A test of two texts. -/
def compared (left sign right : String) : Option Answer :=
  let order (test : Int → Int → Bool) : Option Answer := some do
    return test (← number left) (← number right)
  match sign with
  | "=" => some (.ok (left == right))
  | "!=" => some (.ok (left != right))
  | "<" => some (.ok (decide (left < right)))
  | ">" => some (.ok (decide (right < left)))
  | "-eq" => order (· == ·)
  | "-ne" => order (· != ·)
  | "-lt" => order (decide <| · < ·)
  | "-le" => order (decide <| · ≤ ·)
  | "-gt" => order (decide <| · > ·)
  | "-ge" => order (decide <| · ≥ ·)
  | _ => none
where
  /-- A number with blanks around it. -/
  number (text : String) : Except String Int :=
    let (negative, digits) := match Text.trimWhere isSplit text.toList with
      | '-' :: digits => (true, digits)
      | '+' :: digits => (false, digits)
      | digits => (false, digits)
    match Text.number? 10 digits with
    | some n => .ok (if negative then -(n : Int) else (n : Int))
    | none => .error ("Illegal number: " ++ text)

/-- What texts say as a test; `fuel` bounds how many there are. -/
def tested (s : Session) : (fuel : Nat) → List String → Answer
  | 0, _ => .ok false
  | _ + 1, [] => .ok false
  | _ + 1, [text] => .ok !text.isEmpty
  | fuel + 1, [sign, text] =>
    if sign = "!" then (tested s fuel [text]).map (!·)
    else
      match asked s sign text with
      | some answer => .ok answer
      | none => .error (sign ++ ": unexpected operator")
  | fuel + 1, first :: rest =>
    match rest with
    | [sign, right] =>
      match compared first sign right with
      | some answer => answer
      | none => composed fuel first rest
    | _ => composed fuel first rest
where
  /-- Tests that are joined or negated. -/
  composed (fuel : Nat) (first : String) (rest : List String) : Answer :=
    match splitAt? "-o" (first :: rest) with
    | some (left, right) => return (← tested s fuel left) || (← tested s fuel right)
    | none =>
      match splitAt? "-a" (first :: rest) with
      | some (left, right) => return (← tested s fuel left) && (← tested s fuel right)
      | none =>
        if first = "!" then (tested s fuel rest).map (!·)
        else .error (first ++ ": unexpected operator")
  /-- The texts before and after the first one of a kind. -/
  splitAt? (text : String) (texts : List String) : Option (List String × List String) :=
    let before := texts.takeWhile (· != text)
    if before.length < texts.length then some (before, texts.drop (before.length + 1)) else none

end GoScaffold.Script
