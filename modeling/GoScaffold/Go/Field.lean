import GoScaffold.Schema.Table

set_option autoImplicit false

/-! # Fields

The Go side of a column. Columns that may be null are pointers, so that a value that was not
supplied can be told from a zero; a column of an unknown type is an interface, which can be nil by
itself. -/

namespace GoScaffold

/-- The Go type of a category. -/
def TypeCategory.goType : TypeCategory → String
  | .bool => "bool"
  | .int32 => "int32"
  | .int64 => "int64"
  | .float => "float64"
  | .text => "string"
  | .temporal => "time.Time"
  | .other => "interface\x7b\x7d"

namespace Go

/-- A type, or a pointer to it. -/
def nullable (type : String) (pointer : Bool) : String := if pointer then "*" ++ type else type

end Go

namespace Column

/-- Whether the column's field is a pointer. -/
def isPointer (c : Column) : Bool := !c.isRequired && c.category != .other

/-- The type of the column's field. -/
def goType (c : Column) : String := Go.nullable c.category.goType c.isPointer

/-- The test that an expression for the column holds a value that was supplied. -/
def suppliedTest (c : Column) (expr : String) : String :=
  if c.isPointer then expr ++ " != nil"
  else
    match c.category with
    | .bool => expr
    | .int32 | .int64 | .float => expr ++ " != 0"
    | .text => expr ++ " != \"\""
    | .temporal => "!" ++ expr ++ ".IsZero()"
    | .other => expr ++ " != nil"

/-- The verb that prints the column's field. -/
def verb (c : Column) : String :=
  if c.isPointer then "%v"
  else
    match c.category with
    | .bool => "%t"
    | .int32 | .int64 => "%d"
    | .text => "%q"
    | .float | .temporal | .other => "%v"

/-- The argument that prints an expression for the column. -/
def printed (c : Column) (expr : String) : String :=
  if c.isPointer then "deref(" ++ expr ++ ")" else expr

/-- The column's field of the record `s`. -/
def ofRecord (c : Column) : String := "s." ++ c.fieldName

/-- Whether the column holds times. -/
def isTemporal (c : Column) : Bool := c.category == .temporal

end Column

/-- Whether a table has a column that holds times. -/
def Table.hasTimes (t : Table) : Bool := t.columns.any (·.isTemporal)

end GoScaffold
