import GoScaffold.Text.Blank

set_option autoImplicit false

/-! # Options that are texts

Some options are given as text and may be refused. A refusal keeps the text and the reason; the
wording is made here alone. -/

namespace GoScaffold

/-- Why the text of an option is refused. -/
inductive OptionError
  /-- No unit of time has this name. -/
  | unknownUnit (value : String)
  /-- There is no `=` between a column and a value. -/
  | noEquals (value : String)
  /-- Nothing stands before or after the `=`. -/
  | emptySide (value : String)
  deriving DecidableEq, Repr

/-- The wording of a refusal. -/
def OptionError.message : OptionError → String
  | .unknownUnit value => "invalid value `" ++ value ++ "` for round: expected one of s, ms, us"
  | .noEquals value => "invalid value `" ++ value ++ "` for logical delete: expected `column=value`"
  | .emptySide value =>
    "invalid value `" ++ value ++ "` for logical delete: column and value must not be empty"

/-- The unit that times are truncated to before they are bound. -/
inductive Rounding
  | second
  | millisecond
  | microsecond
  deriving DecidableEq, Repr

namespace Rounding

/-- The short name of the unit. -/
def name : Rounding → String
  | .second => "s"
  | .millisecond => "ms"
  | .microsecond => "us"

/-- The Go constant for the unit. -/
def duration : Rounding → String
  | .second => "time.Second"
  | .millisecond => "time.Millisecond"
  | .microsecond => "time.Microsecond"

/-- The names that each unit goes by. -/
def names : List (Rounding × List String) := [
  (.second, ["s", "second"]),
  (.millisecond, ["ms", "milli", "millisecond"]),
  (.microsecond, ["us", "μs", "micro", "microsecond"])]

/-- The unit of a name with white space around it. -/
def parse (text : String) : Except OptionError Rounding :=
  let word := Text.trim text
  match names.find? fun (_, words) => words.contains word with
  | some (unit, _) => .ok unit
  | none => .error (.unknownUnit word)

end Rounding

end GoScaffold
