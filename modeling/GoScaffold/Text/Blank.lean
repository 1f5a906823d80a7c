import GoScaffold.Text.Cut

set_option autoImplicit false

/-! # White space

Trimming and word splitting use the Unicode property `White_Space`. -/

namespace GoScaffold.Text

/-- The characters of the `White_Space` property. -/
def isBlank (c : Char) : Bool :=
  let n := c.toNat
  (decide (0x9 ≤ n) && decide (n ≤ 0xD)) || n == 0x20 || n == 0x85 || n == 0xA0 || n == 0x1680
    || (decide (0x2000 ≤ n) && decide (n ≤ 0x200A)) || n == 0x2028 || n == 0x2029 || n == 0x202F
    || n == 0x205F || n == 0x3000

/-- White space of ASCII, the vertical tab and the form feed included. -/
def isAsciiBlank (c : Char) : Bool :=
  let n := c.toNat
  (decide (0x9 ≤ n) && decide (n ≤ 0xD)) || n == 0x20

/-- A text without the white space at its ends. -/
def trimBlank (cs : List Char) : List Char := trimWhere isBlank cs

/-- `trimBlank` on strings. -/
def trim (s : String) : String := onChars trimBlank s

/-- The words of a text: its pieces between runs of white space. -/
def words (cs : List Char) : List (List Char) :=
  (splitWhere isBlank cs).filter fun w => !w.isEmpty

/-- The text on one line: its words with one space between each two. -/
def oneLine (s : String) : String := join " " ((words s.toList).map String.ofList)

theorem isBlank_of_isAsciiBlank {c : Char} (h : isAsciiBlank c = true) : isBlank c = true := by
  simp only [isAsciiBlank, isBlank, Bool.or_eq_true] at h ⊢
  rcases h with h | h <;> simp [h]

end GoScaffold.Text
