import GoScaffold.Schema.Table

set_option autoImplicit false

/-! # Keys

What is rendered for a table follows its keys. Groups that identify at most one row are, in this
order, each column that is primary or unique by itself, the primary groups and the unique groups;
the index groups identify any number of rows. Groups without columns do not count. -/

namespace GoScaffold

/-- The key groups of a table as columns. -/
structure Keys where
  /-- Groups that identify at most one row. -/
  unique : List (List Column)
  /-- Groups that identify any number of rows. -/
  index : List (List Column)
  /-- The group behind the operations on single rows. -/
  primary : Option (List Column)
  deriving DecidableEq, Repr

namespace Table

/-- The groups as columns, those without columns left out. -/
def resolve (t : Table) (groups : List KeyGroup) : List (List Column) :=
  (groups.map t.groupColumns).filter fun columns => !columns.isEmpty

/-- The columns that are a key by themselves. -/
def inlineKeys (t : Table) : List (List Column) :=
  (t.columns.filter fun c => c.flags.primary || c.flags.unique).map fun c => [c]

/-- The keys of a table. The primary group is the first column that is primary by itself, or else
the first primary group. -/
def keys (t : Table) : Keys where
  unique := t.inlineKeys ++ (t.resolve t.primaryKeys ++ t.resolve t.uniqueKeys)
  index := t.resolve t.indexKeys
  primary :=
    match t.columns.find? (·.flags.primary) with
    | some c => some [c]
    | none => (t.resolve t.primaryKeys).head?

end Table

/-- Whether two groups have the same column names in the same order. -/
def sameColumns (a b : List Column) : Bool := a.map (·.name) == b.map (·.name)

/-- The groups that have the columns of an earlier one; `earlier` came before them. -/
def repeatedGroups (earlier : List (List Column)) : List (List Column) → List (List Column)
  | [] => []
  | group :: rest =>
    let later := repeatedGroups (earlier ++ [group]) rest
    if earlier.any (sameColumns · group) then group :: later else later

/-- The unique groups that repeat an earlier one. -/
def Keys.duplicates (k : Keys) : List (List Column) := repeatedGroups [] k.unique

/-- The part of function names that names a group: its field names, one after another. -/
def groupSuffix (columns : List Column) : String := Text.concat (columns.map (·.fieldName))

/-- The column names of a group, for messages. -/
def groupLabel (columns : List Column) : String := Text.join ", " (columns.map (·.name))

end GoScaffold
