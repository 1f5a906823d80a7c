import GoScaffold.Artifact.Accessor
import GoScaffold.Go.File

set_option autoImplicit false

/-! # Service

The file of the service layer: a type that holds the database, and per table a method for each of
its operations. The plain style calls the data access functions of the primary group; the other
goes through gorm. -/

namespace GoScaffold.Service

open Go

/-- The primary group of a table, or no columns. -/
def primaryKey (t : Table) : List Column := t.keys.primary.getD []

/-- The data access function behind an operation of the plain style. -/
def accessor (t : Table) : Operation → Accessor
  | .create => .create
  | .update => .update (primaryKey t)
  | .list => .list .unordered
  | .get => .get (primaryKey t)
  | .delete => .delete (primaryKey t)

/-- The call of the data access function behind an operation. -/
def accessorCall (t : Table) (o : Options) (op : Operation) : String :=
  o.package ++ "." ++ (accessor t op).name t.modelName
    ++ (if (accessor t op).isPaged then "(p.DB, s, page, size)" else "(p.DB, s)")

/-- Puts the generated id into the record, if the column can hold it. -/
def assignId? (c : Column) : Option Code :=
  let assign (value : String) : Code :=
    if c.isPointer then lines ["v := " ++ value, c.ofRecord ++ " = &v"]
    else line (c.ofRecord ++ " = " ++ value)
  match c.category with
  | .int32 => some (assign "int32(id)")
  | .int64 => some (assign "id")
  | _ => none

/-- Inserts, then puts the generated id into the record. -/
def plainCreate (t : Table) (o : Options) : Code :=
  let call := accessorCall t o .create
  match o.convention, (t.columns.find? (·.flags.autoIncrement)).bind assignId? with
  | .returned, some assign =>
    line ("id, err := " ++ call) ++ block "if err != nil" (line "return err") ++ assign
      ++ line "return nil"
  | .returned, none => lines ["_, err := " ++ call, "return err"]
  | .panicking, some assign => line ("id := " ++ call) ++ assign
  | .panicking, none => line call

/-- Updates or deletes, and forgets how many rows changed. -/
def plainExecute (t : Table) (o : Options) (op : Operation) : Code :=
  let call := accessorCall t o op
  match o.convention with
  | .returned => lines ["_, err := " ++ call, "return err"]
  | .panicking => line call

/-- The body of a method of the plain style. -/
def plainBody (t : Table) (o : Options) (op : Operation) : Code :=
  match op with
  | .create => plainCreate t o
  | .list | .get => line ("return " ++ accessorCall t o op)
  | .update | .delete => plainExecute t o op

/-- The record type as other packages name it. -/
def recordType (t : Table) (o : Options) : String := o.package ++ "." ++ t.modelName

/-- A record that holds the primary group alone, as a condition. -/
def keyRecord (t : Table) (o : Options) : String :=
  "&" ++ composite (recordType t o)
    (Text.join ", " ((primaryKey t).map fun c => c.fieldName ++ ": " ++ c.ofRecord))

/-- A literal of statements as a Go literal: a quoted one as a string, any other as it stands. -/
def goLiteral (sql : String) : String :=
  match Text.between? '\'' '\'' sql.toList with
  | some inner => String.ofList (quoteChars (Sql.undouble '\'' inner))
  | none => sql

/-- Deletes through gorm: by removing the row or by marking it. -/
def ormDeleteCall (t : Table) (o : Options) : String :=
  match markColumn? t o.logicalDelete with
  | some (c, d) =>
    "p.DB.Model(&" ++ composite (recordType t o) "" ++ ").Where(" ++ keyRecord t o ++ ").Update("
      ++ quote c.name ++ ", " ++ goLiteral (d.deleteLiteral c) ++ ").Error"
  | none =>
    "p.DB.Where(" ++ keyRecord t o ++ ").Delete(&" ++ composite (recordType t o) "" ++ ").Error"

/-- The body of a method of the gorm style. -/
def ormBody (t : Table) (o : Options) (op : Operation) : Code :=
  let c := o.convention
  let record := recordType t o
  match op with
  | .create => c.forward [] "p.DB.Create(s).Error"
  | .update => c.forward [] "p.DB.Model(s).Updates(s).Error"
  | .list =>
    block "if page <= 0" (line "page = 1") ++ block "if size <= 0" (line "size = 10")
      ++ line "var count int64"
      ++ c.guard ["0", "nil"]
        ("p.DB.Model(&" ++ composite record "" ++ ").Where(s).Count(&count).Error")
      ++ line ("var list []*" ++ record)
      ++ c.guard ["0", "nil"]
        "p.DB.Where(s).Offset((page - 1) * size).Limit(size).Find(&list).Error"
      ++ c.succeed ["int(count)", "list"]
  | .get =>
    lines ["m := &" ++ composite record "", "err := p.DB.Where(" ++ keyRecord t o ++ ").Take(m).Error"]
      ++ block "if errors.Is(err, gorm.ErrRecordNotFound)" (c.succeed ["nil"])
      ++ c.check ["nil"] ++ c.succeed ["m"]
  | .delete => c.forward [] (ormDeleteCall t o)

/-- The parameters of a method. -/
def parameters (t : Table) (o : Options) (op : Operation) : String :=
  "s *" ++ recordType t o ++
    match op with
    | .list => ", page int, size int"
    | _ => ""

/-- The method of an operation. -/
def methodCode (t : Table) (o : Options) (op : Operation) : Code :=
  declaration
    ("func (p *" ++ o.serviceType ++ ") " ++ op.methodName t.modelName ++ "(" ++ parameters t o op
      ++ ")" ++ o.convention.results (op.resultTypes (recordType t o)))
    (match o.style with
      | .plain => plainBody t o op
      | .orm => ormBody t o op)

/-- What stands before the tables: the type of the service. -/
def preamble (o : Options) : Code :=
  match o.style with
  | .plain =>
    line ("// " ++ o.serviceType ++ " serves the generated models over database/sql.")
      ++ declaration ("type " ++ o.serviceType ++ " struct") (line "DB *sql.DB")
  | .orm =>
    line ("// " ++ o.serviceType ++ " serves the generated models through gorm.")
      ++ declaration ("type " ++ o.serviceType ++ " struct") (line "DB *gorm.DB")
      ++ (match o.convention with
        | .panicking => Convention.assertHelper
        | .returned => [])

/-- The part of the file for one table. -/
def tableCode (t : Table) (o : Options) : Code :=
  heading t.modelName ++ (Operation.ofTable t).flatMap (methodCode t o)

/-- The file of the service layer. -/
def file (tables : List Table) (o : Options) (today : String) : File where
  package := "service"
  banner := o.bannerText? today
  imports :=
    (if tables.isEmpty then [] else [o.importPath o.package])
      ++ (match o.style with
        | .plain => ["database/sql"]
        | .orm =>
          "gorm.io/gorm" :: (if tables.any (·.keys.primary.isSome) then ["errors"] else []))
  body := preamble o ++ tables.flatMap (tableCode · o)

end GoScaffold.Service
