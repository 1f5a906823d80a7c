import GoScaffold.Schema.Table
import GoScaffold.Sql.Quoted

set_option autoImplicit false

/-! # Table declarations

Declarations of tables as data: what one says (`TableDef.table`) and how it is written
(`TableDef.sql`). Columns carry any clauses in any order; keys list columns by their places. -/

namespace GoScaffold.Declaration

/-- A name of ASCII letters, digits and underscores. -/
structure Name where
  text : String
  plain : ∀ c ∈ text.toList, Text.isWordChar c = true
  deriving DecidableEq

/-- The value of a string literal that needs no escapes but doubled quotes. -/
structure Literal where
  value : String
  plain : '\\' ∉ value.toList
  deriving DecidableEq

/-- A string literal in quotes of either kind, for any value. -/
structure Remark where
  quote : Char
  quoted : quote = '\'' ∨ quote = '"'
  value : String
  deriving DecidableEq

/-- The name in backticks. -/
def Name.sql (n : Name) : String := Sql.backticked n.text

/-- The value in single quotes. -/
def Literal.sql (l : Literal) : String :=
  "'" ++ String.ofList (Sql.double '\'' l.value.toList) ++ "'"

/-- The value in its quotes, escaped. -/
def Remark.sql (r : Remark) : String := String.ofList (Sql.literal r.quote r.value.toList)

/-! ## Columns -/

/-- The type of a column. -/
inductive ColumnType
  | tinyInt
  | int
  | bigInt
  | double
  | decimal (precision scale : Nat)
  | varchar (length : Nat)
  | text
  | json
  | dateTime
  | timestamp
  | blob
  deriving DecidableEq

namespace ColumnType

/-- The keyword of the type. -/
def keyword : ColumnType → String
  | .tinyInt => "TINYINT"
  | .int => "INT"
  | .bigInt => "BIGINT"
  | .double => "DOUBLE"
  | .decimal _ _ => "DECIMAL"
  | .varchar _ => "VARCHAR"
  | .text => "TEXT"
  | .json => "JSON"
  | .dateTime => "DATETIME"
  | .timestamp => "TIMESTAMP"
  | .blob => "BLOB"

/-- What follows the keyword: a modifier or arguments. -/
def detail : ColumnType → String
  | .int => " UNSIGNED"
  | .decimal precision scale => "(" ++ toString precision ++ ", " ++ toString scale ++ ")"
  | .varchar length => "(" ++ toString length ++ ")"
  | _ => ""

/-- The type as it is written. -/
def sql (t : ColumnType) : String := t.keyword ++ t.detail

end ColumnType

/-- The value of a default. -/
inductive Default
  | int (value : Int)
  | string (value : Literal)
  | now
  deriving DecidableEq

/-- The value as it is written. -/
def Default.sql : Default → String
  | .int value => toString value
  | .string value => value.sql
  | .now => "CURRENT_TIMESTAMP"

/-- A clause of a column. -/
inductive Clause
  | notNull
  | null
  | autoIncrement
  | primaryKey
  | unique
  | default (value : Default)
  | onUpdateNow
  | comment (value : Literal)
  deriving DecidableEq

namespace Clause

/-- The clause as it is written. -/
def sql : Clause → String
  | .notNull => "NOT NULL"
  | .null => "NULL"
  | .autoIncrement => "AUTO_INCREMENT"
  | .primaryKey => "PRIMARY KEY"
  | .unique => "UNIQUE"
  | .default value => "DEFAULT " ++ value.sql
  | .onUpdateNow => "ON UPDATE CURRENT_TIMESTAMP"
  | .comment value => "COMMENT " ++ value.sql

/-- The default that the clause gives. -/
def default? : Clause → Option Default
  | .default value => some value
  | _ => none

/-- The comment that the clause gives. -/
def comment? : Clause → Option Literal
  | .comment value => some value
  | _ => none

end Clause

/-- A column with its clauses in order. -/
structure ColumnDef where
  name : Name
  type : ColumnType
  clauses : List Clause

namespace ColumnDef

/-- The column as it is written. -/
def sql (c : ColumnDef) : String :=
  c.name.sql ++ " " ++ c.type.sql ++ Text.concat (c.clauses.map fun clause => " " ++ clause.sql)

/-- The default that counts: the last one. -/
def default? (c : ColumnDef) : Option Default := (c.clauses.filterMap Clause.default?).getLast?

/-- The column that is declared. -/
def column (c : ColumnDef) : Column where
  name := c.name.text
  declaredType := c.type.keyword
  flags := {
    primary := decide (.primaryKey ∈ c.clauses)
    unique := decide (.unique ∈ c.clauses)
    autoIncrement := decide (.autoIncrement ∈ c.clauses)
    notNull := decide (.notNull ∈ c.clauses)
    hasDefault := c.default?.isSome
    currentTimestamp := decide (c.default? = some .now)
    onUpdate := decide (.onUpdateNow ∈ c.clauses) }
  comment := (c.clauses.filterMap Clause.comment?).getLast?.map (·.value)
  default := c.default?.map (·.sql)

end ColumnDef

/-! ## Tables -/

/-- A key over some of the columns, `width` of them being declared. -/
structure KeyDef (width : Nat) where
  kind : KeyKind
  /-- The number in the name of the key; primary keys have none. -/
  label : Nat
  members : List (Fin width)
  nonempty : members ≠ []

/-- A table. No two columns have names that differ only in case. -/
structure TableDef where
  name : Name
  columns : List ColumnDef
  keys : List (KeyDef columns.length)
  comment : Option Literal
  nonempty : columns ≠ []
  distinct : (columns.map fun c => Text.raised c.name.text).Nodup

/-- The words before the members of a key. -/
def keyHead (label : Nat) : KeyKind → String
  | .primary => "PRIMARY KEY"
  | .unique => "UNIQUE KEY k_" ++ toString label
  | .index => "KEY k_" ++ toString label

namespace TableDef

/-- A key as it is written. -/
def keySql (d : TableDef) (k : KeyDef d.columns.length) : String :=
  keyHead k.label k.kind ++ " (" ++ Text.join ", " (k.members.map fun i => d.columns[i].name.sql) ++ ")"

/-- The columns and keys as they are written. -/
def definitions (d : TableDef) : List String := d.columns.map (·.sql) ++ d.keys.map d.keySql

/-- The options of the table as they are written. -/
def options (d : TableDef) : String :=
  match d.comment with
  | none => "ENGINE=InnoDB"
  | some comment => "ENGINE=InnoDB COMMENT=" ++ comment.sql

/-- The declaration as it is written. -/
def sql (d : TableDef) : String :=
  "CREATE TABLE " ++ d.name.sql ++ " (\n  " ++ Text.join ",\n  " d.definitions ++ "\n) "
    ++ d.options ++ ";"

/-- The keys of one kind, as places of columns. -/
def groups (d : TableDef) (kind : KeyKind) : List KeyGroup :=
  (d.keys.filter (·.kind == kind)).map fun k => ⟨k.members.map Fin.val⟩

/-- The table that is declared. -/
def table (d : TableDef) : Table where
  name := d.name.text
  columns := d.columns.map (·.column)
  primaryKeys := d.groups .primary
  uniqueKeys := d.groups .unique
  indexKeys := d.groups .index
  comment := d.comment.map (·.value)

end TableDef

/-! ## Comments of any value -/

/-- What may stand after the type of a column: a clause, or a comment of any value. -/
abbrev Part := Clause ⊕ Remark

/-- The part as it is written. -/
def Part.sql : Part → String
  | .inl clause => clause.sql
  | .inr remark => "COMMENT " ++ remark.sql

/-- The comment that the part gives. -/
def Part.comment? : Part → Option String
  | .inl clause => clause.comment?.map (·.value)
  | .inr remark => some remark.value

/-- A column with comments of any value among its clauses. -/
structure RemarkedColumn where
  name : Name
  type : ColumnType
  parts : List Part

namespace RemarkedColumn

/-- The column with its clauses alone. -/
def plain (c : RemarkedColumn) : ColumnDef := ⟨c.name, c.type, c.parts.filterMap Sum.getLeft?⟩

/-- The column as it is written. -/
def sql (c : RemarkedColumn) : String :=
  c.name.sql ++ " " ++ c.type.sql ++ Text.concat (c.parts.map fun part => " " ++ part.sql)

/-- The column that is declared: of several comments the last counts. -/
def column (c : RemarkedColumn) : Column :=
  { c.plain.column with comment := (c.parts.filterMap Part.comment?).getLast? }

end RemarkedColumn

/-- A table whose columns have comments of any value, and perhaps the table too. -/
structure RemarkedTable where
  plain : TableDef
  columns : List RemarkedColumn
  columns_eq : columns.map (·.plain) = plain.columns
  remark : Option Remark

namespace RemarkedTable

/-- The options of the table as they are written. -/
def options (d : RemarkedTable) : String :=
  match d.remark with
  | none => d.plain.options
  | some remark => "ENGINE=InnoDB COMMENT=" ++ remark.sql

/-- The declaration as it is written. -/
def sql (d : RemarkedTable) : String :=
  "CREATE TABLE " ++ d.plain.name.sql ++ " (\n  "
    ++ Text.join ",\n  " (d.columns.map (·.sql) ++ d.plain.keys.map d.plain.keySql) ++ "\n) "
    ++ d.options ++ ";"

/-- The table that is declared. -/
def table (d : RemarkedTable) : Table :=
  { d.plain.table with
    columns := d.columns.map (·.column)
    comment := (d.remark.map (·.value)).or d.plain.table.comment }

end RemarkedTable

end GoScaffold.Declaration
