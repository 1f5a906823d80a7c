set_option autoImplicit false

/-! # ASCII capitals

Keywords and identifiers are compared without regard to ASCII case. Raising a text to ASCII
capitals changes neither its number of characters nor the width of any of them, so a position found
in the raised text is a position of the text itself. -/

namespace GoScaffold.Text

/-- What holds of the characters of a text is decided along the text, and never along all
characters. -/
instance (priority := 2000) decidableForallMem (p : Char → Prop) [DecidablePred p]
    (cs : List Char) : Decidable (∀ c ∈ cs, p c) :=
  List.decidableBAll p cs

instance (priority := 2000) decidableExistsMem (p : Char → Prop) [DecidablePred p]
    (cs : List Char) : Decidable (∃ c ∈ cs, p c) :=
  List.decidableBEx p cs

/-- The text with `a`–`z` raised to capitals and every other character kept. -/
def raise (cs : List Char) : List Char := cs.map Char.toUpper

/-- `raise` on strings. -/
def raised (s : String) : String := String.ofList (raise s.toList)

/-- Equality up to ASCII case. -/
def sameLetters (s t : String) : Bool := raise s.toList == raise t.toList

/-- A letter, digit or underscore of ASCII. -/
def isWordChar (c : Char) : Bool := c.isAlphanum || c == '_'

@[simp] theorem length_raise (cs : List Char) : (raise cs).length = cs.length := by
  simp [raise]

@[simp] theorem raise_append (as bs : List Char) : raise (as ++ bs) = raise as ++ raise bs := by
  simp [raise]

theorem sameLetters_iff {s t : String} :
    sameLetters s t = true ↔ raise s.toList = raise t.toList := by
  simp [sameLetters]

end GoScaffold.Text
