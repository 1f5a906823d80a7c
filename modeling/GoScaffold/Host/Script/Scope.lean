import GoScaffold.Host.Script.Pattern
import GoScaffold.Host.Script.Sum

set_option autoImplicit false

/-! # Words of shell scripts and their values

What a word stands for depends on the arguments of the script and on its variables. The values of
parameters outside quotes are split into fields at their blanks. -/

namespace GoScaffold.Script

/-- What words depend on. -/
structure Scope where
  /-- The name of the script, and then its arguments. -/
  arguments : List String
  bindings : List (String × String) := []
  /-- The exit code of the last command. -/
  status : Nat := 0

/-- A part of what a word stands for. -/
inductive Bit
  | text (t : String) (quoted : Bool)
  /-- Where fields are split. -/
  | gap

/-- The value of a parameter as one text. -/
def Scope.lookup? (r : Scope) (name : String) : Option String :=
  if name = "#" then some (toString (r.arguments.length - 1))
  else if name = "?" then some (toString r.status)
  else if name = "@" ∨ name = "*" then
    if r.arguments.length ≤ 1 then none else some (Text.join " " (r.arguments.drop 1))
  else
    match name.toNat? with
    | some n => r.arguments[n]?
    | none => (r.bindings.lookup name)

/-- A character that splits fields. -/
def isSplit (c : Char) : Bool := c == ' ' || c == '\t' || c == '\n'

/-- The parts of a value, which is split where it has blanks. -/
def splitBits (value : String) : List Bit :=
  let pieces := (Text.splitWhere isSplit value.toList).map fun piece =>
    if piece.isEmpty then [] else [Bit.text (String.ofList piece) false]
  (pieces.intersperse [.gap]).flatten

/-- The parts of the value of a parameter. -/
def Scope.valueBits (r : Scope) (splits : Bool) (name : String) (quoted : Bool) : List Bit :=
  let one (value : String) : List Bit :=
    if quoted || !splits then [.text value quoted] else splitBits value
  if (name = "@" ∨ (name = "*" ∧ ¬ quoted)) ∧ splits then
    (((r.arguments.drop 1).map one).intersperse [.gap]).flatten
  else one ((r.lookup? name).getD "")

/-- The value of a variable in an integer expression. -/
def Scope.integer (r : Scope) (name : String) : Int :=
  ((r.lookup? name).bind fun v => Sum.integer? v.toList).getD 0

/-- The text of parts. -/
def textOf (bits : List Bit) : String :=
  Text.concat (bits.map fun
    | .text t _ => t
    | .gap => " ")

/-- The marks of parts as a pattern. -/
def marksOf (bits : List Bit) : List Mark :=
  Mark.read 0 (bits.flatMap fun
    | .text t quoted => t.toList.map fun c => (c, quoted)
    | .gap => [(' ', true)])

mutual

/-- The parts that a word stands for. -/
def Scope.bits (r : Scope) (splits : Bool) : Word → List Bit
  | [] => []
  | piece :: rest => r.pieceBits splits piece ++ r.bits splits rest

/-- The parts that a part of a word stands for. -/
def Scope.pieceBits (r : Scope) (splits : Bool) : Piece → List Bit
  | .literal text quoted => [.text text quoted]
  | .sum w quoted =>
    [.text (toString ((Sum.value? r.integer (textOf (r.bits false w)).toList).getD 0)) quoted]
  | .parameter name .value quoted => r.valueBits splits name quoted
  | .parameter name .size quoted =>
    [.text (toString ((r.lookup? name).getD "").utf8ByteSize) quoted]
  | .parameter name (.orElse orEmpty w) quoted =>
    if isMissing name orEmpty then r.bits splits w else r.valueBits splits name quoted
  | .parameter name (.instead notEmpty w) quoted =>
    if isMissing name notEmpty then (if quoted then [.text "" true] else []) else r.bits splits w
  | .parameter name (.without atEnd longest pattern) quoted =>
    let value := (r.lookup? name).getD ""
    let value := String.ofList (cut atEnd longest (marksOf (r.bits false pattern)) value.toList)
    if quoted || !splits then [.text value quoted] else splitBits value
where
  /-- Whether a parameter is not set, or perhaps empty. -/
  isMissing (name : String) (orEmpty : Bool) : Bool :=
    match r.lookup? name with
    | none => true
    | some value => orEmpty && value.isEmpty

end

/-- The text of a word that is not split. -/
def Scope.text (r : Scope) (w : Word) : String := textOf (r.bits false w)

/-- The fields that words stand for. A field is there if anything in it is, be it an empty text in
quotes. -/
def Scope.fields (r : Scope) (words : List Word) : List String :=
  words.flatMap fun w =>
    let isGap : Bit → Bool
      | .gap => true
      | .text _ _ => false
    ((Text.splitWhere isGap (r.bits true w)).filter fun bits => !bits.isEmpty).map textOf

end GoScaffold.Script
