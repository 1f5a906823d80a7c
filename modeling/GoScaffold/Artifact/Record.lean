import GoScaffold.Go.Field
import GoScaffold.Go.File
import GoScaffold.Go.Literal
import GoScaffold.Schema.Keys

set_option autoImplicit false

/-! # Records

The record types: a struct per table with a field per column, and a method that prints it. -/

namespace GoScaffold.Record

open Go

/-- The settings of a column in its gorm tag. -/
def gormSettings (c : Column) (isKey : Bool) : List String :=
  ["column:" ++ c.name]
    ++ (if isKey then ["primaryKey"] else [])
    ++ (if c.flags.autoIncrement then ["autoIncrement"] else [])
    ++ (if c.flags.notNull then ["not null"] else [])
    ++ (match c.default with
      | some d =>
        if c.hasLiteralDefault then
          ["default:" ++ Text.onChars (fun cs => cs.filter (· != '`')) d]
        else []
      | none => [])

/-- The tag of a field: its name on the wire, and with gorm its settings. -/
def fieldTag (c : Column) (isKey : Bool) (style : Style) : String :=
  let wire := "json:\"" ++ c.wireName ++ "\" form:\"" ++ c.wireName ++ "\""
  match style with
  | .plain => wire
  | .orm => wire ++ " gorm:\"" ++ Text.join ";" (gormSettings c isKey) ++ "\""

/-- The line of a field. -/
def fieldLine (c : Column) (isKey : Bool) (style : Style) : String :=
  c.fieldName ++ " " ++ c.goType ++ " `" ++ fieldTag c isKey style ++ "`"
    ++ (match c.comment with
      | some comment => " // " ++ Text.oneLine comment
      | none => "")

/-- Whether a column belongs to the primary group. -/
def isKeyColumn (t : Table) (c : Column) : Bool :=
  (t.keys.primary.getD []).any fun k => k.name == c.name

/-- The comment before a struct. -/
def structComment (t : Table) : String :=
  match t.comment with
  | some comment => "// " ++ t.modelName ++ " " ++ Text.oneLine comment
  | none => "// " ++ t.modelName ++ " maps table " ++ t.name ++ "."

/-- The struct of a table, with its comment. -/
def structCode (t : Table) (style : Style) : Code :=
  line (structComment t)
    ++ declaration ("type " ++ t.modelName ++ " struct")
      (lines (t.columns.map fun c => fieldLine c (isKeyColumn t c) style))

/-- The method that tells gorm the name of the table. -/
def tableNameCode (t : Table) : Code :=
  declaration ("func (*" ++ t.modelName ++ ") TableName() string")
    (line ("return " ++ quote t.name))

/-- The format that prints a record: each field with its verb. -/
def printFormat (t : Table) : String :=
  composite t.modelName (Text.join ", " (t.columns.map fun c => c.fieldName ++ ": " ++ c.verb))

/-- The method that prints a record. -/
def stringCode (t : Table) : Code :=
  declaration ("func (s *" ++ t.modelName ++ ") String() string")
    (block "if s == nil" (line "return \"<nil>\"")
      ++ line ("return fmt.Sprintf(\"" ++ printFormat t ++ "\""
        ++ Text.concat (t.columns.map fun c => ", " ++ c.printed c.ofRecord) ++ ")"))

/-- The function behind printed pointers. -/
def derefCode : Code :=
  declaration "func deref[T any](p *T) interface\x7b\x7d"
    (block "if p == nil" (line "return nil") ++ line "return *p")

/-- The part of the file for one table. -/
def tableCode (t : Table) (style : Style) : Code :=
  heading t.modelName ++ structCode t style
    ++ (match style with
      | .orm => tableNameCode t
      | .plain => [])
    ++ stringCode t

/-- The file of record types. -/
def file (tables : List Table) (o : Options) (today : String) : File where
  package := o.package
  banner := o.bannerText? today
  imports :=
    (if tables.isEmpty then [] else ["fmt"])
      ++ (if tables.any (·.hasTimes) then ["time"] else [])
  body :=
    tables.flatMap (tableCode · o.style)
      ++ (if tables.any (·.columns.any (·.isPointer)) then derefCode else [])

end GoScaffold.Record
