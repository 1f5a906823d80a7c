import GoScaffold.Artifact.Access

set_option autoImplicit false

/-! # Running the body of an accessor

The steps of an accessor, run as the code that `Step.code` writes for them: on a record that may be
missing, and on the variables of the function. The outcome is which statements are sent and with
which values. The database is taken to answer every statement, so the function goes on after it. -/

namespace GoScaffold

/-- A value bound to a placeholder when a statement is sent. -/
inductive Argument
  | field (value : Bound)
  | page (number : Access.PageNumber)
  deriving DecidableEq, Repr

/-- A statement that is sent, with the values bound to its placeholders. -/
structure Call where
  sql : String
  arguments : List Argument
  deriving DecidableEq, Repr

/-- Why a function ends before it has sent its statements. -/
inductive Refusal
  /-- The record is missing. -/
  | nilPointer
  /-- No field to set was supplied. -/
  | nothingToUpdate
  /-- A field of a missing record was read. -/
  | nilDereference
  deriving DecidableEq, Repr

/-- The record of a call: the columns whose fields pass the test of a supplied value. -/
abbrev Supplied := Column → Bool

/-- The variables of a function, and the statements it has sent. -/
structure Frame where
  columns : List String
  sets : List String
  conditions : List String
  args : List Argument
  query : String
  /-- The variable `where`. -/
  condition : String
  /-- The variable `order`. -/
  ordering : String
  sent : List Call
  deriving DecidableEq, Repr

namespace Frame

/-- The frame in which a function starts. -/
def start : Frame := ⟨[], [], [], [], "", "", "", []⟩

/-- The texts of a gathered list. -/
def gathered (f : Frame) : Gathered → List String
  | .columns => f.columns
  | .sets => f.sets
  | .conditions => f.conditions

/-- Sets a gathered list. -/
def setGathered (f : Frame) : Gathered → List String → Frame
  | .columns, items => { f with columns := items }
  | .sets, items => { f with sets := items }
  | .conditions, items => { f with conditions := items }

/-- Appends texts to a gathered list, and the values that belong to them to the arguments. -/
def gather (f : Frame) (g : Gathered) (items : List String) (values : List Bound) : Frame :=
  { f.setGathered g (f.gathered g ++ items) with args := f.args ++ values.map .field }

/-- Sends a statement. -/
def send (f : Frame) (sql : String) (arguments : List Argument) : Frame :=
  { f with sent := f.sent ++ [⟨sql, arguments⟩] }

@[simp] theorem gather_nil (f : Frame) (g : Gathered) : f.gather g [] [] = f := by
  cases g <;> simp [gather, setGathered, gathered]

theorem gather_gather (f : Frame) (g : Gathered) (items items' : List String)
    (values values' : List Bound) :
    (f.gather g items values).gather g items' values'
      = f.gather g (items ++ items') (values ++ values') := by
  cases g <;> simp [gather, setGathered, gathered, List.append_assoc]

end Frame

/-- The value of the function `placeholders`. -/
def placeholdersText (n : Nat) : String :=
  if n = 0 then "" else Text.concat (List.replicate (n - 1) "?, ") ++ "?"

/-- The value of a part of a statement. -/
def QueryPart.value (t : Table) (f : Frame) : QueryPart → String
  | .fixed sql => sql
  | .allColumns => Access.selectList t
  | .gathered g => Text.join ", " (f.gathered g)
  | .placeholders => placeholdersText f.columns.length
  | .condition => f.condition
  | .ordering => f.ordering

/-- The text of a statement, its parts put together. -/
def queryValue (t : Table) (f : Frame) (parts : List QueryPart) : String :=
  Text.concat (parts.map (QueryPart.value t f))

/-- Reads the fields of some values; a missing record has no fields. -/
def readFields (record : Option Supplied) (values : List Bound) : Except Refusal (List Argument) :=
  match record, values with
  | none, _ :: _ => .error .nilDereference
  | _, _ => .ok (values.map .field)

/-- Appends a text and a value if the field of the value was supplied. -/
def Supply.exec (record : Option Supplied) (f : Frame) (s : Supply) : Except Refusal Frame :=
  match record with
  | none => .error .nilDereference
  | some supplied =>
    .ok (if supplied s.value.column then f.gather s.into [s.item] [s.value] else f)

/-- Runs the function that fetches a page: it counts, then selects. -/
def Frame.fetchPage (t : Table) (f : Frame) (order : ListOrder) : Frame :=
  let f := { f with ordering := order.clause }
  (f.send (queryValue t f (Access.countQuery t)) f.args).send
    (queryValue t f (Access.pageQuery t)) (f.args ++ Access.pageNumbers.map .page)

/-- Runs a step. -/
def Step.exec (t : Table) (record : Option Supplied) (f : Frame) : Step → Except Refusal Frame
  | .rejectNil => if record.isNone then .error .nilPointer else .ok f
  | .startColumns columns => .ok { f with columns := columns.map fun c => Sql.backticked c.name }
  | .startValues values => (readFields record values).map fun args => { f with args := args }
  | .startGathering g _ => .ok (f.setGathered g [])
  | .startNoValues _ => .ok { f with args := [] }
  | .supply s => s.exec record f
  | .supplyFromRecord supplies =>
    if record.isNone then .ok f else supplies.foldlM (Supply.exec record) f
  | .rejectNoSets => if f.sets.isEmpty then .error .nothingToUpdate else .ok f
  | .addValues values => (readFields record values).map fun args => { f with args := f.args ++ args }
  | .query parts => .ok { f with query := queryValue t f parts }
  | .whereFixed clause => .ok { f with condition := clause }
  | .whereGathered =>
    .ok { f with
      condition := if f.conditions.isEmpty then "" else " where " ++ Text.join " and " f.conditions }
  | .insert => .ok (f.send f.query f.args)
  | .execute => .ok (f.send f.query f.args)
  | .executeWith values => (readFields record values).map fun args => f.send f.query args
  | .fetch values => (readFields record values).map fun args => f.send f.query args
  | .fetchPage order => .ok (f.fetchPage t order)

/-- Runs steps one after another. -/
def execAll (t : Table) (record : Option Supplied) (f : Frame) (steps : List Step) :
    Except Refusal Frame :=
  steps.foldlM (Step.exec t record) f

/-- The statements that a function sends on a record. -/
def Accessor.calls (t : Table) (o : Options) (a : Accessor) (record : Option Supplied) :
    Except Refusal (List Call) :=
  (execAll t record Frame.start (a.steps t o)).map (·.sent)

/-! ## What runs of steps do -/

@[simp] theorem readFields_some (supplied : Supplied) (values : List Bound) :
    readFields (some supplied) values = .ok (values.map .field) := rfl

@[simp] theorem execAll_nil (t : Table) (record : Option Supplied) (f : Frame) :
    execAll t record f [] = .ok f := rfl

@[simp] theorem execAll_cons (t : Table) (record : Option Supplied) (f : Frame) (s : Step)
    (ss : List Step) :
    execAll t record f (s :: ss) = (s.exec t record f).bind fun g => execAll t record g ss := rfl

@[simp] theorem execAll_append (t : Table) (record : Option Supplied) (f : Frame)
    (ss ss' : List Step) :
    execAll t record f (ss ++ ss')
      = (execAll t record f ss).bind fun g => execAll t record g ss' := by
  unfold execAll
  exact List.foldlM_append

/-- What supplied columns add: their texts and their values, in the order of the columns. -/
theorem foldlM_supplies (o : Options) (supplied : Supplied) (g : Gathered) (item : Column → String)
    (columns : List Column) (f : Frame) :
    (Accessor.supplies o g item columns).foldlM (Supply.exec (some supplied)) f
      = .ok (f.gather g ((columns.filter supplied).map item)
          ((columns.filter supplied).map (Bound.ofColumn o))) := by
  induction columns generalizing f with
  | nil => rw [List.filter_nil, List.map_nil, List.map_nil, Frame.gather_nil]; rfl
  | cons c columns ih =>
    rw [Accessor.supplies, List.map_cons, List.foldlM_cons]
    show (Supply.exec (some supplied) f ⟨g, item c, Bound.ofColumn o c⟩).bind
      (fun f' => (Accessor.supplies o g item columns).foldlM (Supply.exec (some supplied)) f') = _
    have hcolumn : (Bound.ofColumn o c).column = c := rfl
    by_cases hc : supplied c
    · simp only [Supply.exec, hcolumn, hc, if_true, Except.bind]
      rw [ih, Frame.gather_gather, List.filter_cons_of_pos hc, List.map_cons, List.map_cons]
      rfl
    · simp only [Supply.exec, hcolumn, hc, Except.bind]
      rw [List.filter_cons_of_neg hc]
      exact ih f

theorem execAll_supplies (t : Table) (o : Options) (supplied : Supplied) (g : Gathered)
    (item : Column → String) (columns : List Column) (f : Frame) :
    execAll t (some supplied) f ((Accessor.supplies o g item columns).map .supply)
      = .ok (f.gather g ((columns.filter supplied).map item)
          ((columns.filter supplied).map (Bound.ofColumn o))) := by
  rw [← foldlM_supplies, execAll, List.foldlM_map]
  rfl

/-- As many placeholders as asked for, with commas. -/
theorem placeholdersText_eq_join (n : Nat) :
    placeholdersText n = Text.join ", " (List.replicate n "?") := by
  cases n with
  | zero => rfl
  | succ n =>
    rw [placeholdersText, if_neg (Nat.succ_ne_zero n), Nat.add_sub_cancel]
    induction n with
    | zero => rfl
    | succ n ih =>
      have hjoin : Text.join ", " (List.replicate (n + 2) "?")
          = "?" ++ ", " ++ Text.join ", " (List.replicate (n + 1) "?") := rfl
      have hmark : "?, " = "?" ++ ", " := by decide
      rw [hjoin, ← ih, List.replicate_succ, Text.concat, String.append_assoc, hmark]

end GoScaffold
