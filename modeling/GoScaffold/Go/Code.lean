import GoScaffold.Options.Basic

set_option autoImplicit false

/-! # Code

Go code is a list of lines, each with its depth; a block is a line that opens it, its body one tab
deeper, and a line that closes it. The two conventions of reporting failures differ only in the few
statements at the end of this file. -/

namespace GoScaffold.Go

/-- A line of code. -/
structure Line where
  depth : Nat
  text : String
  deriving DecidableEq, Repr

/-- Lines of code. -/
abbrev Code := List Line

/-- One line. -/
def line (text : String) : Code := [⟨0, text⟩]

/-- Several lines of one depth. -/
def lines (texts : List String) : Code := texts.map fun text => ⟨0, text⟩

/-- An empty line. -/
def gap : Code := line ""

/-- The code one tab deeper. -/
def indent (c : Code) : Code := c.map fun l => { l with depth := l.depth + 1 }

/-- A body between a line that opens it and a line that closes it. -/
def enclosed (opening : String) (body : Code) (closing : String) : Code :=
  line opening ++ indent body ++ line closing

/-- A body in braces, after the head of the block. -/
def block (head : String) (body : Code) : Code := enclosed (head ++ " \x7b") body "\x7d"

/-- A declaration: a block and an empty line after it. -/
def declaration (head : String) (body : Code) : Code := block head body ++ gap

/-- A line as text. -/
def Line.render (l : Line) : String := String.ofList (List.replicate l.depth '\t') ++ l.text ++ "\n"

/-- Code as text. -/
def render (c : Code) : String := Text.concat (c.map Line.render)

/-- A composite literal on one line. -/
def composite (type : String) (inner : String) : String := type ++ "\x7b" ++ inner ++ "\x7d"

@[simp] theorem render_append (a b : Code) : render (a ++ b) = render a ++ render b := by
  simp [render]

end GoScaffold.Go

/-! ## Reporting failures -/

namespace GoScaffold.Convention

open Go

/-- A return statement. -/
def returning (values : List String) : Code :=
  match values with
  | [] => line "return"
  | _ => line ("return " ++ Text.join ", " values)

/-- Gives up if `err` is set; `zeros` are the other results. -/
def check (c : Convention) (zeros : List String) : Code :=
  match c with
  | .returned => block "if err != nil" (returning (zeros ++ ["err"]))
  | .panicking => line "assertErrorNil(err)"

/-- Gives up with an error. -/
def fail (c : Convention) (zeros : List String) (error : String) : Code :=
  match c with
  | .returned => returning (zeros ++ [error])
  | .panicking => line ("panic(" ++ error ++ ")")

/-- Gives up if an expression of type `error` is set. -/
def guard (c : Convention) (zeros : List String) (expr : String) : Code :=
  match c with
  | .returned => block ("if err := " ++ expr ++ "; err != nil") (returning (zeros ++ ["err"]))
  | .panicking => line ("assertErrorNil(" ++ expr ++ ")")

/-- Ends a function with a call that yields `values` and an error. -/
def forward (c : Convention) (values : List String) (call : String) : Code :=
  match c, values with
  | .returned, _ => line ("return " ++ call)
  | .panicking, [] => line ("assertErrorNil(" ++ call ++ ")")
  | .panicking, _ =>
    line (Text.join ", " values ++ ", err := " ++ call) ++ line "assertErrorNil(err)"
      ++ returning values

/-- Ends a function that succeeded with `values`. -/
def succeed (c : Convention) (values : List String) : Code :=
  match c with
  | .returned => returning (values ++ ["nil"])
  | .panicking => returning values

/-- The types of all results of a function whose successful results have the types `types`. -/
def resultTypes (c : Convention) (types : List String) : List String :=
  match c with
  | .returned => types ++ ["error"]
  | .panicking => types

/-- The results of a function as its head declares them. -/
def results (c : Convention) (types : List String) : String :=
  match c.resultTypes types with
  | [] => ""
  | [type] => " " ++ type
  | all => " (" ++ Text.join ", " all ++ ")"

/-- The function that panics on an error. -/
def assertHelper : Code :=
  declaration "func assertErrorNil(err error)" (block "if err != nil" (line "panic(err)"))

end GoScaffold.Convention
