import GoScaffold.Options.LogicalDelete
import GoScaffold.Schema.Keys

set_option autoImplicit false

/-! # Operations

What the service offers for a table. Handlers, routes, service methods and the document all follow
the list of a table's operations. -/

namespace GoScaffold

/-- An operation of the service. -/
inductive Operation
  | create
  | update
  | list
  | get
  | delete
  deriving DecidableEq, Repr

namespace Operation

/-- The operations of a table, in the order of routes. Those that address a single row need a
primary group. -/
def ofTable (t : Table) : List Operation :=
  if t.keys.primary.isSome then [.create, .update, .list, .get, .delete] else [.create, .list]

/-- The part of names before the name of the record. -/
def verb : Operation → String
  | .create => "Create"
  | .update => "Update"
  | .list => "QueryMany"
  | .get => "Query"
  | .delete => "Delete"

/-- The request method. -/
def method : Operation → String
  | .create | .list | .get => "POST"
  | .update => "PUT"
  | .delete => "DELETE"

/-- The route. -/
def route (op : Operation) (t : Table) : String :=
  let base := "/api/" ++ t.routeName
  match op with
  | .list => base ++ "/many"
  | .get => base ++ "/one"
  | .create | .update | .delete => base

/-- The title in the document. -/
def title : Operation → String
  | .create => "Create"
  | .update => "Update"
  | .list => "Query Many"
  | .get => "Query One"
  | .delete => "Delete"

/-- The name of the handler and of the service method. -/
def methodName (op : Operation) (model : String) : String := op.verb ++ model

/-- The types of the results of the service method for a record type. -/
def resultTypes (op : Operation) (record : String) : List String :=
  match op with
  | .list => ["int", "[]*" ++ record]
  | .get => ["*" ++ record]
  | .create | .update | .delete => []

end Operation

/-- The column that marks deleted rows of a table, with the setting, if the table has it. -/
def markColumn? (t : Table) (setting : Option LogicalDelete) : Option (Column × LogicalDelete) :=
  match setting with
  | none => none
  | some d => (t.column? d.column).map fun c => (c, d)

end GoScaffold
