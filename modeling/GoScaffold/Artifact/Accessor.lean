import GoScaffold.Artifact.Operation
import GoScaffold.Go.Code
import GoScaffold.Go.Field
import GoScaffold.Go.Literal

set_option autoImplicit false

/-! # Accessors

The functions of the data access artifact, as values: which functions a table gets, what each is
named, and the statements of its body. The statements do not know how failures are reported; that is
settled when they become code. -/

namespace GoScaffold

open Go

/-! ## Which functions there are -/

/-- The order of a list. -/
inductive ListOrder
  /-- No order is asked for. -/
  | unordered
  | ascending (columns : List Column)
  | descending (columns : List Column)
  deriving DecidableEq, Repr

namespace ListOrder

/-- The part of function names that names the order. -/
def suffix : ListOrder → String
  | .unordered => ""
  | .ascending columns => "OrderBy" ++ groupSuffix columns
  | .descending columns => "OrderBy" ++ groupSuffix columns ++ "Desc"

/-- The clause that asks for the order. -/
def clause : ListOrder → String
  | .unordered => ""
  | .ascending columns =>
    " order by " ++ Text.join ", " (columns.map fun c => Sql.backticked c.name)
  | .descending columns =>
    " order by " ++ Text.join ", " (columns.map fun c => Sql.backticked c.name ++ " desc")

/-- The orders of a table: none, and one for each list of columns of which the table has some. -/
def ofTable (t : Table) (o : Options) : List ListOrder :=
  let ascending := o.orderAsc.filterMap t.column?
  let descending := o.orderDesc.filterMap t.column?
  [.unordered]
    ++ (if ascending.isEmpty then [] else [.ascending ascending])
    ++ (if descending.isEmpty then [] else [.descending descending])

end ListOrder

/-- A function of the data access artifact; `key` is the group that finds the rows. -/
inductive Accessor
  | create
  | update (key : List Column)
  | get (key : List Column)
  | listBy (key : List Column) (order : ListOrder)
  | list (order : ListOrder)
  | delete (key : List Column)
  /-- Deletes by writing the literal into the column. -/
  | mark (key : List Column) (column : Column) (literal : String)
  /-- Brings back by writing the literal into the column. -/
  | restore (key : List Column) (column : Column) (literal : String)
  deriving DecidableEq, Repr

namespace Accessor

/-- The functions that delete by a key: one that removes the row, or one that marks it and, if the
value has an opposite, one that brings it back. -/
def deletions (t : Table) (o : Options) (key : List Column) : List Accessor :=
  match markColumn? t o.logicalDelete with
  | none => [.delete key]
  | some (c, d) =>
    .mark key c (d.deleteLiteral c)
      :: (match d.restoreLiteral? c with
        | some literal => [.restore key c literal]
        | none => [])

/-- The functions of a table, in order. -/
def ofTable (t : Table) (o : Options) : List Accessor :=
  [.create]
    ++ t.keys.unique.flatMap (fun key => [.update key, .get key])
    ++ (ListOrder.ofTable t o).flatMap (fun order =>
      t.keys.index.map (fun key => .listBy key order) ++ [.list order])
    ++ t.keys.unique.flatMap (deletions t o)

/-- The name of the function for a record type. -/
def name (model : String) : Accessor → String
  | .create => "Create" ++ model
  | .update key => "Update" ++ model ++ "By" ++ groupSuffix key
  | .get key => "Query" ++ model ++ "By" ++ groupSuffix key
  | .listBy key order => "QueryMany" ++ model ++ "By" ++ groupSuffix key ++ order.suffix
  | .list order => "QueryMany" ++ model ++ order.suffix
  | .delete key => "Delete" ++ model ++ "By" ++ groupSuffix key
  | .mark key _ _ => "Delete" ++ model ++ "By" ++ groupSuffix key
  | .restore key _ _ => "UnDelete" ++ model ++ "By" ++ groupSuffix key

/-- What the comment before the function says. -/
def summary (model : String) (a : Accessor) : String :=
  a.name model ++
    match a with
    | .create => " inserts a " ++ model ++ " and returns the generated id."
    | .update key =>
      " updates the supplied fields of the " ++ model ++ " matching " ++ groupSuffix key ++ "."
    | .get key =>
      " returns the " ++ model ++ " matching " ++ groupSuffix key ++ ", or nil when there is none."
    | .listBy key _ =>
      " lists the " ++ model ++ " rows matching " ++ groupSuffix key ++ ", one page at a time."
    | .list _ =>
      " lists the " ++ model ++ " rows matching the supplied fields of s, one page at a time."
    | .delete key => " deletes the " ++ model ++ " matching " ++ groupSuffix key ++ "."
    | .mark key _ _ => " marks the " ++ model ++ " matching " ++ groupSuffix key ++ " as deleted."
    | .restore key _ _ => " restores the " ++ model ++ " matching " ++ groupSuffix key ++ "."

/-- The types of the results of a successful call. -/
def resultTypes (model : String) : Accessor → List String
  | .get _ => ["*" ++ model]
  | .listBy _ _ | .list _ => ["int", "[]*" ++ model]
  | .create | .update _ | .delete _ | .mark _ _ _ | .restore _ _ _ => ["int64"]

/-- The results besides the error of a call that fails. -/
def zeros : Accessor → List String
  | .get _ => ["nil"]
  | .listBy _ _ | .list _ => ["0", "nil"]
  | .create | .update _ | .delete _ | .mark _ _ _ | .restore _ _ _ => ["0"]

/-- Whether the function takes a page. -/
def isPaged : Accessor → Bool
  | .listBy _ _ | .list _ => true
  | _ => false

end Accessor

/-! ## What the functions do -/

/-- A value bound to a placeholder: the field of a column, truncated if a rounding is given. -/
structure Bound where
  column : Column
  rounding : Option Rounding
  deriving DecidableEq, Repr

namespace Bound

/-- The value of a column; only times are truncated. -/
def ofColumn (o : Options) (c : Column) : Bound where
  column := c
  rounding := if c.isTemporal then o.rounding else none

/-- The value as an expression. -/
def text (b : Bound) : String :=
  let field := b.column.ofRecord
  match b.rounding with
  | none => field
  | some unit =>
    if b.column.isPointer then "truncateTime(" ++ field ++ ", " ++ unit.duration ++ ")"
    else field ++ ".Truncate(" ++ unit.duration ++ ")"

/-- Several values as arguments. -/
def arguments (bs : List Bound) : String := Text.join ", " (bs.map text)

end Bound

/-- The lists of texts that functions gather. -/
inductive Gathered
  /-- The columns of an insert. -/
  | columns
  /-- The assignments of an update. -/
  | sets
  /-- The conditions of a list. -/
  | conditions
  deriving DecidableEq, Repr

/-- The name of the variable. -/
def Gathered.variable : Gathered → String
  | .columns => "columns"
  | .sets => "sets"
  | .conditions => "conditions"

/-- Adds a text and a value if the field of the value's column was supplied. -/
structure Supply where
  into : Gathered
  item : String
  value : Bound
  deriving DecidableEq, Repr

/-- A part of the text of a statement. -/
inductive QueryPart
  /-- A fixed text. -/
  | fixed (sql : String)
  /-- The constant with all columns of the table. -/
  | allColumns
  /-- A gathered list, with commas. -/
  | gathered (g : Gathered)
  /-- As many placeholders as there are columns gathered. -/
  | placeholders
  /-- The condition of a list. -/
  | condition
  /-- The clause that orders a list. -/
  | ordering
  deriving DecidableEq, Repr

/-- A statement of a function's body. -/
inductive Step
  /-- Gives up without a record. -/
  | rejectNil
  /-- Starts the columns of an insert with these. -/
  | startColumns (columns : List Column)
  /-- Starts the values with these. -/
  | startValues (values : List Bound)
  /-- Starts an empty list with room for some texts. -/
  | startGathering (g : Gathered) (room : Nat)
  /-- Starts an empty list of values with room for some. -/
  | startNoValues (room : Nat)
  | supply (s : Supply)
  /-- Supplies these if there is a record. -/
  | supplyFromRecord (supplies : List Supply)
  /-- Gives up if there is nothing to set. -/
  | rejectNoSets
  /-- Adds values. -/
  | addValues (values : List Bound)
  /-- The text of the statement. -/
  | query (parts : List QueryPart)
  /-- A fixed condition of a list. -/
  | whereFixed (clause : String)
  /-- The condition of a list from what was gathered. -/
  | whereGathered
  /-- Inserts, and yields the generated id. -/
  | insert
  /-- Runs the statement with the gathered values, and yields how many rows it changed. -/
  | execute
  /-- Runs the statement with these values, and yields how many rows it changed. -/
  | executeWith (values : List Bound)
  /-- Fetches one record or none. -/
  | fetch (values : List Bound)
  /-- Fetches a page in an order. -/
  | fetchPage (order : ListOrder)
  deriving DecidableEq, Repr

/-- A condition or assignment for a column, with a placeholder for the value. -/
def equalsPlaceholder (c : Column) : String := Sql.backticked c.name ++ " = ?"

/-- The condition that finds the rows of a key. -/
def keyCondition (key : List Column) : String := Text.join " and " (key.map equalsPlaceholder)

namespace Accessor

/-- The columns that an insert may name. -/
def insertable (t : Table) : List Column := t.columns.filter fun c => !c.isGenerated

/-- The columns that an update by a key may set. -/
def updatable (t : Table) (key : List Column) : List Column :=
  (t.columns.filter fun c => !key.any fun k => k.name == c.name).filter fun c =>
    !c.isGenerated && !c.flags.onUpdate

/-- A step for each column whose field may be supplied. -/
def supplies (o : Options) (g : Gathered) (item : Column → String) (columns : List Column) :
    List Supply :=
  columns.map fun c => ⟨g, item c, Bound.ofColumn o c⟩

/-- The steps of a function that runs one fixed statement with the values of a key. -/
def executeByKey (o : Options) (key : List Column) (sql : String) : List Step :=
  [.rejectNil, .query [.fixed sql], .executeWith (key.map (Bound.ofColumn o))]

/-- The statement that writes a literal into the column that marks deleted rows. -/
def markSql (t : Table) (key : List Column) (c : Column) (literal : String) : String :=
  "update " ++ Sql.backticked t.name ++ " set " ++ Sql.backticked c.name ++ " = " ++ literal
    ++ " where " ++ keyCondition key

/-- The steps of a function. -/
def steps (t : Table) (o : Options) : Accessor → List Step
  | .create =>
    let (optional, always) := (insertable t).partition (·.hasLiteralDefault)
    [.rejectNil, .startColumns always, .startValues (always.map (Bound.ofColumn o))]
      ++ (supplies o .columns (fun c => Sql.backticked c.name) optional).map .supply
      ++ [.query [.fixed ("insert into " ++ Sql.backticked t.name ++ " ("), .gathered .columns,
            .fixed ") values (", .placeholders, .fixed ")"],
          .insert]
  | .update key =>
    let columns := updatable t key
    [.rejectNil, .startGathering .sets columns.length,
        .startNoValues (columns.length + key.length)]
      ++ (supplies o .sets equalsPlaceholder columns).map .supply
      ++ [.rejectNoSets, .addValues (key.map (Bound.ofColumn o)),
          .query [.fixed ("update " ++ Sql.backticked t.name ++ " set "), .gathered .sets,
            .fixed (" where " ++ keyCondition key)],
          .execute]
  | .get key =>
    [.rejectNil,
      .query [.fixed "select ", .allColumns,
        .fixed (" from " ++ Sql.backticked t.name ++ " where " ++ keyCondition key)],
      .fetch (key.map (Bound.ofColumn o))]
  | .listBy key order =>
    [.rejectNil, .whereFixed (" where " ++ keyCondition key),
      .startValues (key.map (Bound.ofColumn o)), .fetchPage order]
  | .list order =>
    [.startGathering .conditions t.columns.length, .startNoValues t.columns.length,
      .supplyFromRecord (supplies o .conditions equalsPlaceholder t.columns), .whereGathered,
      .fetchPage order]
  | .delete key =>
    executeByKey o key
      ("delete from " ++ Sql.backticked t.name ++ " where " ++ keyCondition key)
  | .mark key c literal => executeByKey o key (markSql t key c literal)
  | .restore key c literal => executeByKey o key (markSql t key c literal)

end Accessor

/-! ## As code -/

/-- The name of the constant with all columns of a table. -/
def columnsConstant (model : String) : String := Naming.lowerFirst model ++ "Columns"

/-- The part as an expression. -/
def QueryPart.text (model : String) : QueryPart → String
  | .fixed sql => quote sql
  | .allColumns => columnsConstant model
  | .gathered g => "strings.Join(" ++ g.variable ++ ", \", \")"
  | .placeholders => "placeholders(len(columns))"
  | .condition => "where"
  | .ordering => "order"

/-- The step as code. -/
def Supply.code (s : Supply) : Code :=
  block ("if " ++ s.value.column.suppliedTest s.value.column.ofRecord)
    (lines [
      s.into.variable ++ " = append(" ++ s.into.variable ++ ", " ++ quote s.item ++ ")",
      "args = append(args, " ++ s.value.text ++ ")"])

/-- The step as code; `zeros` are the results of a call that fails. -/
def Step.code (model : String) (c : Convention) (zeros : List String) : Step → Code
  | .rejectNil => block "if s == nil" (c.fail zeros "ErrNilPointer")
  | .startColumns columns =>
    line ("columns := " ++ composite "[]string"
      (Text.join ", " (columns.map fun c => quote (Sql.backticked c.name))))
  | .startValues values => line ("args := " ++ composite "[]any" (Bound.arguments values))
  | .startGathering g room =>
    line (g.variable ++ " := make([]string, 0, " ++ toString room ++ ")")
  | .startNoValues room => line ("args := make([]any, 0, " ++ toString room ++ ")")
  | .supply s => s.code
  | .supplyFromRecord supplies => block "if s != nil" (supplies.flatMap Supply.code)
  | .rejectNoSets => block "if len(sets) == 0" (c.fail zeros "ErrNothingToUpdate")
  | .addValues values => line ("args = append(args, " ++ Bound.arguments values ++ ")")
  | .query parts => line ("query := " ++ Text.join " + " (parts.map (QueryPart.text model)))
  | .whereFixed clause => line ("where := " ++ quote clause)
  | .whereGathered =>
    line "where := \"\""
      ++ block "if len(conditions) > 0"
        (line "where = \" where \" + strings.Join(conditions, \" and \")")
  | .insert =>
    line "result, err := db.Exec(query, args...)" ++ c.check zeros
      ++ c.forward ["id"] "result.LastInsertId()"
  | .execute => c.forward ["rows"] "rowsAffected(db.Exec(query, args...))"
  | .executeWith values =>
    c.forward ["rows"] ("rowsAffected(db.Exec(query, " ++ Bound.arguments values ++ "))")
  | .fetch values =>
    line ("m, err := scan" ++ model ++ "(db.QueryRow(query, " ++ Bound.arguments values ++ "))")
      ++ block "if errors.Is(err, sql.ErrNoRows)" (c.succeed ["nil"])
      ++ c.check zeros ++ c.succeed ["m"]
  | .fetchPage order =>
    c.forward ["count", "list"]
      ("queryMany" ++ model ++ "(db, where, " ++ quote order.clause ++ ", args, page, size)")

/-- The head of a function. -/
def Accessor.head (model : String) (c : Convention) (a : Accessor) : String :=
  "func " ++ a.name model ++ "(db DataSource, s *" ++ model
    ++ (if a.isPaged then ", page int, size int)" else ")")
    ++ c.results (a.resultTypes model)

/-- The function as code. -/
def Accessor.code (t : Table) (o : Options) (a : Accessor) : Code :=
  let model := t.modelName
  line ("// " ++ a.summary model)
    ++ declaration (a.head model o.convention)
      ((a.steps t o).flatMap (Step.code model o.convention a.zeros))

end GoScaffold
