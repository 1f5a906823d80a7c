import GoScaffold.Artifact.Accessor
import GoScaffold.Go.File

set_option autoImplicit false

/-! # Data access

The file of data access functions. What all tables share comes first; each table then has a constant
with its columns, a scanner, a function that fetches pages, and its accessors. -/

namespace GoScaffold.Access

open Go

/-- The declarations that every file has. -/
def sharedCode : Code :=
  line "// DataSource is implemented by *sql.DB and *sql.Tx."
    ++ declaration "type DataSource interface"
      (lines [
        "Exec(query string, args ...any) (sql.Result, error)",
        "QueryRow(query string, args ...any) *sql.Row",
        "Query(query string, args ...any) (*sql.Rows, error)"])
    ++ enclosed "var ("
      (lines [
        "ErrNilPointer      = errors.New(\"pointer can not be nil\")",
        "ErrNothingToUpdate = errors.New(\"nothing to update\")"]) ")"
    ++ gap
    ++ declaration "func placeholders(n int) string"
      (block "if n <= 0" (line "return \"\"")
        ++ line "return strings.Repeat(\"?, \", n-1) + \"?\"")
    ++ declaration "func rowsAffected(result sql.Result, err error) (int64, error)"
      (block "if err != nil" (line "return 0, err") ++ line "return result.RowsAffected()")

/-- The function that truncates times behind pointers. -/
def truncateCode : Code :=
  declaration "func truncateTime(t *time.Time, d time.Duration) *time.Time"
    (block "if t == nil" (line "return nil") ++ lines ["v := t.Truncate(d)", "return &v"])

/-- What stands before the tables; `rounds` says whether times are truncated. -/
def preamble (c : Convention) (rounds : Bool) : Code :=
  sharedCode
    ++ (match c with
      | .panicking => Convention.assertHelper
      | .returned => [])
    ++ (if rounds then truncateCode else [])

/-- The columns of a table as a select lists them. -/
def selectList (t : Table) : String :=
  Text.join ", " (t.columns.map fun c => Sql.backticked c.name)

/-- The constant with all columns of a table. -/
def columnsCode (t : Table) : Code :=
  line ("const " ++ columnsConstant t.modelName ++ " = " ++ quote (selectList t)) ++ gap

/-- The fields that a row is scanned into, in the order of the select list. -/
def scanTargets (t : Table) : String :=
  Text.join ", " (t.columns.map fun c => "&m." ++ c.fieldName)

/-- The function that scans a row into a record. -/
def scanCode (t : Table) : Code :=
  let model := t.modelName
  declaration
    ("func scan" ++ model ++ "(row interface\x7b Scan(dest ...any) error \x7d) (*" ++ model ++ ", error)")
    (line ("m := &" ++ composite model "")
      ++ block ("if err := row.Scan(" ++ scanTargets t ++ "); err != nil") (line "return nil, err")
      ++ line "return m, nil")

/-- A number bound to a placeholder of the limit of a page. -/
inductive PageNumber
  /-- How many rows stand before the page. -/
  | offset
  /-- How many rows the page has. -/
  | size
  deriving DecidableEq, Repr

/-- The number as an expression. -/
def PageNumber.text : PageNumber → String
  | .offset => "(page-1)*size"
  | .size => "size"

/-- The statement that counts the rows of a list. -/
def countQuery (t : Table) : List QueryPart :=
  [.fixed ("select count(*) from " ++ Sql.backticked t.name), .condition]

/-- The statement that selects the rows of a page. -/
def pageQuery (t : Table) : List QueryPart :=
  [.fixed "select ", .allColumns, .fixed (" from " ++ Sql.backticked t.name), .condition,
    .ordering, .fixed " limit ?, ?"]

/-- What the statement of a page binds after the arguments of the condition. -/
def pageNumbers : List PageNumber := [.offset, .size]

/-- A statement as an expression, written without blanks. -/
def inlineQuery (model : String) (parts : List QueryPart) : String :=
  Text.join "+" (parts.map (QueryPart.text model))

/-- The function that fetches a page: it counts the rows, then selects those of the page. -/
def pageCode (t : Table) : Code :=
  let model := t.modelName
  declaration
    ("func queryMany" ++ model
      ++ "(db DataSource, where string, order string, args []any, page int, size int) (int, []*"
      ++ model ++ ", error)")
    (block "if page <= 0" (line "page = 1")
      ++ block "if size <= 0" (line "size = 10")
      ++ line "var count int"
      ++ block
        ("if err := db.QueryRow(" ++ inlineQuery model (countQuery t)
          ++ ", args...).Scan(&count); err != nil")
        (line "return 0, nil, err")
      ++ line ("rows, err := db.Query(" ++ inlineQuery model (pageQuery t) ++ ", append(args, "
        ++ Text.join ", " (pageNumbers.map PageNumber.text) ++ ")...)")
      ++ block "if err != nil" (line "return 0, nil, err")
      ++ line "defer rows.Close()"
      ++ line ("list := make([]*" ++ model ++ ", 0, size)")
      ++ block "for rows.Next()"
        (line ("m, err := scan" ++ model ++ "(rows)")
          ++ block "if err != nil" (line "return 0, nil, err")
          ++ line "list = append(list, m)")
      ++ line "return count, list, rows.Err()")

/-- The part of the file for one table. -/
def tableCode (t : Table) (o : Options) : Code :=
  heading t.modelName ++ columnsCode t ++ scanCode t ++ pageCode t
    ++ (Accessor.ofTable t o).flatMap (·.code t o)

/-- Whether times are truncated in a file. -/
def rounds (tables : List Table) (o : Options) : Bool :=
  o.rounding.isSome && tables.any (·.hasTimes)

/-- The options that the tables of a file are rendered with: no rounding is left unless some table has
times. -/
def tableOptions (tables : List Table) (o : Options) : Options :=
  { o with rounding := o.rounding.filter fun _ => tables.any (·.hasTimes) }

/-- The file of data access functions. -/
def file (tables : List Table) (o : Options) (today : String) : File where
  package := o.package
  banner := o.bannerText? today
  imports :=
    ["database/sql", "errors", "strings"] ++ (if rounds tables o then ["time"] else [])
  body :=
    preamble o.convention (rounds tables o)
      ++ tables.flatMap (tableCode · (tableOptions tables o))

end GoScaffold.Access
