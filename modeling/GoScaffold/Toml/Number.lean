import GoScaffold.Text.Cut
import GoScaffold.Text.Digits

set_option autoImplicit false

/-! # TOML numbers

A number is a word as a whole. Integers have 64 bits and a sign. Floating-point numbers are decimals
that are rounded to 64 bits; one that is not negative must not round to infinity. -/

namespace GoScaffold.Toml.Number

/-! ## Digits -/

/-- Digits with single underscores between them. -/
def isDigits (base : Nat) (cs : List Char) : Bool :=
  (Text.splitWhere (· == '_') cs).all fun piece => !piece.isEmpty && piece.all (Text.isDigitOf base)

/-- Digits without a needless zero at their front. -/
def isCount (cs : List Char) : Bool :=
  isDigits 10 cs && (cs.head? != some '0' || cs.length == 1)

/-- A word and whether it has a minus sign, both without the sign. -/
def splitSign : List Char → Bool × List Char
  | '-' :: cs => (true, cs)
  | '+' :: cs => (false, cs)
  | cs => (false, cs)

/-- The number that digits with underscores write. -/
def value (base : Nat) (cs : List Char) : Nat := Text.ofDigits base (cs.filter (· != '_'))

/-! ## Integers -/

/-- The least number that is too great for a signed word of 64 bits. -/
def tooGreat : Nat := 0x8000000000000000

/-- A number in another base; it has no sign. -/
def isBased (base : Nat) (cs : List Char) : Bool :=
  isDigits base cs && decide (value base cs < tooGreat)

/-- An integer of 64 bits. -/
def isInteger (cs : List Char) : Bool :=
  match cs with
  | '0' :: 'x' :: cs => isBased 16 cs
  | '0' :: 'o' :: cs => isBased 8 cs
  | '0' :: 'b' :: cs => isBased 2 cs
  | _ =>
    let (negative, digits) := splitSign cs
    isCount digits && decide (value 10 digits < if negative then tooGreat + 1 else tooGreat)

/-! ## Floating-point numbers -/

/-- A decimal without its sign: digits, the most significant one first, times a power of ten. -/
structure Decimal where
  digits : List Char
  exponent : Int

/-- The least number that rounds to infinity: it lies as far above the greatest finite number of 64
bits as half the distance between that one and the one before it. -/
def infinite : Nat := 0x3FFFFFFFFFFFFF * Nat.pow 2 970

/-- Whether the decimal rounds to infinity. The count of digits before the point decides, except for
309 of them. -/
def Decimal.isInfinite (d : Decimal) : Bool :=
  let digits := d.digits.dropWhile (· == '0')
  let size := (digits.length : Int) + d.exponent
  !digits.isEmpty
    && (decide (309 < size)
      || (decide (size = 309)
        && decide (infinite * Nat.pow 10 (-d.exponent).toNat
          ≤ Text.ofDigits 10 digits * Nat.pow 10 d.exponent.toNat)))

/-- An exponent after its letter. -/
def exponent? (cs : List Char) : Option Int :=
  let (negative, digits) := splitSign cs
  if !isDigits 10 digits then none
  else some (if negative then -(value 10 digits : Int) else (value 10 digits : Int))

/-- A decimal with a fraction, an exponent or both, but without a sign. -/
def decimal? (cs : List Char) : Option Decimal := do
  let mantissa := cs.takeWhile fun c => c != 'e' && c != 'E'
  let whole := mantissa.takeWhile (· != '.')
  if !isCount whole then none
  let exponent ← match cs.drop mantissa.length with
    | [] => if whole.length = mantissa.length then none else some 0
    | _ :: digits => exponent? digits
  match mantissa.drop whole.length with
  | [] => return ⟨plain whole, exponent⟩
  | _ :: fraction =>
    if !isDigits 10 fraction then none
    let fraction := plain fraction
    return ⟨plain whole ++ fraction, exponent - fraction.length⟩
where
  /-- Digits without underscores. -/
  plain (digits : List Char) : List Char := digits.filter (· != '_')

/-- A floating-point number. -/
def isFloat (cs : List Char) : Bool :=
  let (negative, digits) := splitSign cs
  digits == "inf".toList || digits == "nan".toList
    || match decimal? digits with
      | some d => negative || !d.isInfinite
      | none => false

end GoScaffold.Toml.Number
