import GoScaffold.Naming
import GoScaffold.Schema.TypeCategory

set_option autoImplicit false

/-! # Tables

A table is a name, columns in order and key groups. A key group lists columns by their place in the
table; tables that are built by hand may hold groups that are empty or that name places the table
does not have, and everything downstream copes with that. -/

namespace GoScaffold

/-- What the clauses of a column say. -/
structure Flags where
  /-- `PRIMARY KEY` on the column itself. -/
  primary : Bool := false
  /-- `UNIQUE` on the column itself. -/
  unique : Bool := false
  autoIncrement : Bool := false
  notNull : Bool := false
  /-- Any `DEFAULT`. -/
  hasDefault : Bool := false
  /-- The default is the current time. -/
  currentTimestamp : Bool := false
  /-- `ON UPDATE CURRENT_TIMESTAMP`. -/
  onUpdate : Bool := false
  deriving DecidableEq, Repr

/-- A column of a table. -/
structure Column where
  name : String
  /-- The type keyword in capitals, without arguments. -/
  declaredType : String
  flags : Flags := {}
  comment : Option String := none
  /-- The default as it is written, without parentheses around it. -/
  default : Option String := none
  deriving DecidableEq, Repr

namespace Column

/-- The category of the column's type. -/
def category (c : Column) : TypeCategory := TypeCategory.classify c.declaredType

/-- Required columns never hold null. -/
def isRequired (c : Column) : Bool := c.flags.notNull || c.flags.primary

/-- The database fills the column on insert. -/
def isGenerated (c : Column) : Bool := c.flags.autoIncrement || c.flags.currentTimestamp

/-- The column has a default other than the current time. -/
def hasLiteralDefault (c : Column) : Bool := c.flags.hasDefault && !c.flags.currentTimestamp

/-- The name of the column's field. -/
def fieldName (c : Column) : String := Naming.upperCamel c.name

/-- The name of the column on the wire. -/
def wireName (c : Column) : String := Naming.snake c.fieldName

/-- Whether a name, without white space and backticks around it, is the column's up to case. -/
def isNamed (c : Column) (name : String) : Bool :=
  Text.sameLetters c.name (Text.onChars (fun cs => Text.trimWhere (· == '`') (Text.trimBlank cs)) name)

end Column

/-- The kinds of key groups. -/
inductive KeyKind
  | primary
  | unique
  | index
  deriving DecidableEq, Repr

/-- The name of the kind. -/
def KeyKind.name : KeyKind → String
  | .primary => "primary"
  | .unique => "unique"
  | .index => "index"

/-- The columns of a key, in order, by their places in the table. -/
structure KeyGroup where
  places : List Nat
  deriving DecidableEq, Repr

/-- A declared table. -/
structure Table where
  name : String
  columns : List Column := []
  primaryKeys : List KeyGroup := []
  uniqueKeys : List KeyGroup := []
  indexKeys : List KeyGroup := []
  comment : Option String := none
  deriving DecidableEq, Repr

namespace Table

/-- The key groups of one kind. -/
def keyGroups (t : Table) : KeyKind → List KeyGroup
  | .primary => t.primaryKeys
  | .unique => t.uniqueKeys
  | .index => t.indexKeys

/-- The table with one more key group at the end of its kind. -/
def addKeyGroup (t : Table) (kind : KeyKind) (g : KeyGroup) : Table :=
  match kind with
  | .primary => { t with primaryKeys := t.primaryKeys ++ [g] }
  | .unique => { t with uniqueKeys := t.uniqueKeys ++ [g] }
  | .index => { t with indexKeys := t.indexKeys ++ [g] }

/-- The table with one more column at the end. -/
def addColumn (t : Table) (c : Column) : Table := { t with columns := t.columns ++ [c] }

/-- The place of the first column with this name. -/
def columnIndex? (t : Table) (name : String) : Option Nat :=
  t.columns.findIdx? (·.isNamed name)

/-- The first column with this name. -/
def column? (t : Table) (name : String) : Option Column :=
  t.columns.find? (·.isNamed name)

/-- The table with a key group given by names. Names that no column has are left out, and a group
that has none left is not added. -/
def addKey (t : Table) (kind : KeyKind) (names : List String) : Table :=
  match names.filterMap t.columnIndex? with
  | [] => t
  | places => t.addKeyGroup kind ⟨places⟩

/-- The columns of a key group; places that the table does not have are left out. -/
def groupColumns (t : Table) (g : KeyGroup) : List Column :=
  g.places.filterMap fun place => t.columns[place]?

/-- The name of the table's record type. -/
def modelName (t : Table) : String := Naming.upperCamel t.name

/-- The name of the table in routes. -/
def routeName (t : Table) : String := Naming.kebab t.name

@[simp] theorem keyGroups_addKeyGroup_self (t : Table) (kind : KeyKind) (g : KeyGroup) :
    (t.addKeyGroup kind g).keyGroups kind = t.keyGroups kind ++ [g] := by
  cases kind <;> rfl

theorem keyGroups_addKeyGroup_of_ne (t : Table) {kind other : KeyKind} (g : KeyGroup)
    (h : other ≠ kind) : (t.addKeyGroup kind g).keyGroups other = t.keyGroups other := by
  cases kind <;> cases other <;> first | rfl | exact absurd rfl h

@[simp] theorem columns_addKeyGroup (t : Table) (kind : KeyKind) (g : KeyGroup) :
    (t.addKeyGroup kind g).columns = t.columns := by
  cases kind <;> rfl

end Table

end GoScaffold
