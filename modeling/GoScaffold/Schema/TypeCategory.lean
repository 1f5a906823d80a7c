import GoScaffold.Text.Ascii
import GoScaffold.Text.Blank

set_option autoImplicit false

/-! # Categories of column types

The many type keywords of the schema language fall into seven categories; all that is rendered for
a column depends on its category alone. -/

namespace GoScaffold

/-- What kind of value a column holds. -/
inductive TypeCategory
  /-- A small integer used as a flag. -/
  | bool
  | int32
  | int64
  /-- Floating and fixed point numbers. -/
  | float
  | text
  /-- Dates and times of day on a date. -/
  | temporal
  /-- Anything else. -/
  | other
  deriving DecidableEq, Repr

namespace TypeCategory

/-- The category of each known type keyword. -/
def keywords : List (TypeCategory × List String) := [
  (.bool, ["TINYINT", "BOOL", "BOOLEAN"]),
  (.int32, ["SMALLINT", "MEDIUMINT", "INT", "INTEGER", "YEAR"]),
  (.int64, ["BIGINT"]),
  (.float, ["FLOAT", "DOUBLE", "REAL", "DECIMAL", "DEC", "NUMERIC"]),
  (.text,
    ["CHAR", "VARCHAR", "TINYTEXT", "TEXT", "MEDIUMTEXT", "LONGTEXT", "ENUM", "SET", "JSON", "TIME"]),
  (.temporal, ["DATE", "DATETIME", "TIMESTAMP"])]

/-- The category of a type keyword, in any case and with white space around it. -/
def classify (declaredType : String) : TypeCategory :=
  let keyword := Text.raised (Text.trim declaredType)
  match keywords.find? fun (_, names) => names.contains keyword with
  | some (category, _) => category
  | none => .other

/-- Whether values are written without quotes in statements. -/
def isNumeric : TypeCategory → Bool
  | .bool | .int32 | .int64 | .float => true
  | .text | .temporal | .other => false

/-- The name of the category. -/
def name : TypeCategory → String
  | .bool => "bool"
  | .int32 => "int32"
  | .int64 => "int64"
  | .float => "float"
  | .text => "text"
  | .temporal => "temporal"
  | .other => "opaque"

end TypeCategory

end GoScaffold
