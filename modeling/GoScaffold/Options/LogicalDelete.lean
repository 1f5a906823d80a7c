import GoScaffold.Options.Rounding
import GoScaffold.Schema.Table
import GoScaffold.Sql.Quoted

set_option autoImplicit false

/-! # Logical delete

Rows may be deleted by writing a value into a column instead of removing them. Where the value has
an opposite, writing that one brings the row back. -/

namespace GoScaffold

/-- The column that marks deleted rows, and the value that marks them. -/
structure LogicalDelete where
  column : String
  /-- The value, as a rule without quotes. -/
  value : String
  deriving DecidableEq, Repr

namespace LogicalDelete

/-- A quote of a string. -/
def isQuote (c : Char) : Bool := c == '\'' || c == '"'

/-- Reads `column=value`. White space around each side is dropped, then backticks around the column
and quotes around the value. -/
def parse (text : String) : Except OptionError LogicalDelete :=
  match Text.splitOnce '=' text.toList with
  | none => .error (.noEquals text)
  | some (before, after) =>
    let column := Text.trimWhere (· == '`') (Text.trimBlank before)
    let value := Text.trimWhere isQuote (Text.trimBlank after)
    if column.isEmpty || value.isEmpty then .error (.emptySide text)
    else .ok ⟨String.ofList column, String.ofList value⟩

/-- The setting as `column=value`. -/
def display (d : LogicalDelete) : String := d.column ++ "=" ++ d.value

/-- Whether the setting is about this column. -/
def appliesTo (d : LogicalDelete) (c : Column) : Bool := c.isNamed d.column

/-- The values with an opposite. -/
def opposites : List (String × String) := [
  ("1", "0"), ("0", "1"), ("'1'", "'0'"), ("'0'", "'1'"), ("\"1\"", "\"0\""), ("\"0\"", "\"1\"")]

/-- The value that takes a delete back. -/
def opposite? (d : LogicalDelete) : Option String := opposites.lookup d.value

/-- A value as a literal of statements that suits the column: numbers stand as they are, all else
stands in single quotes with quotes in it written twice. -/
def literal (c : Column) (value : String) : String :=
  let bare := Text.trimWhere isQuote value.toList
  if c.category.isNumeric then String.ofList bare
  else String.ofList ('\'' :: (Sql.double '\'' bare ++ ['\'']))

/-- The value that marks a row as deleted, as a literal. -/
def deleteLiteral (d : LogicalDelete) (c : Column) : String := literal c d.value

/-- The value that takes a delete back, as a literal. -/
def restoreLiteral? (d : LogicalDelete) (c : Column) : Option String := d.opposite?.map (literal c)

end LogicalDelete

end GoScaffold
