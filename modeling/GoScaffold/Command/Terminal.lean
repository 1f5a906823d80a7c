set_option autoImplicit false

/-! # Terminal text

Reports are lines of text with colours and weights. A style is a pair of escape sequences around a
text; styles nest. -/

namespace GoScaffold.Terminal

/-! ## Styles -/

/-- A text between the sequences that start and end a style. -/
def styled (on off : Nat) (text : String) : String :=
  "\x1b[" ++ toString on ++ "m" ++ text ++ "\x1b[" ++ toString off ++ "m"

/-- A bold text. -/
def bold (text : String) : String := styled 1 0 text

/-- A faint text. -/
def dim (text : String) : String := styled 2 0 text

/-- A red text. -/
def red (text : String) : String := styled 31 39 text

/-- A green text. -/
def green (text : String) : String := styled 32 39 text

/-- A yellow text. -/
def yellow (text : String) : String := styled 33 39 text

/-- A cyan text. -/
def cyan (text : String) : String := styled 36 39 text

/-- A white text. -/
def white (text : String) : String := styled 37 39 text

/-! ## Lines -/

/-- A line of text. -/
def line (text : String) : String := text ++ "\n"

/-- An empty line. -/
def gap : String := line ""

/-- The title of a report, underlined. -/
def header (text : String) : String :=
  gap ++ line (cyan (bold text))
    ++ line (dim (String.ofList (List.replicate text.toList.length '─'))) ++ gap

/-- The title of a part of a report. -/
def part (text : String) : String := line (white (bold text))

/-- A named value. -/
def entry (name value : String) : String := line ("  " ++ dim name ++ ": " ++ value)

/-- Good news. -/
def success (text : String) : String := line (bold (green "✔") ++ " " ++ green text)

/-- A warning. -/
def warning (text : String) : String := line (bold (yellow "⚠") ++ " " ++ yellow text)

/-- An error. -/
def failure (text : String) : String := line (bold (red "✖") ++ " " ++ red text)

/-- A step of several. -/
def step (number total : Nat) (text : String) : String :=
  line (dim ("[" ++ toString number ++ "/" ++ toString total ++ "]") ++ " " ++ text)

/-- An item of a list. -/
def item (text : String) : String := line ("  " ++ dim "•" ++ " " ++ text)

/-- An item of a list within an item. -/
def subItem (text : String) : String := line ("      " ++ dim text)

/-- A faint line. -/
def note (text : String) : String := line (dim text)

end GoScaffold.Terminal
