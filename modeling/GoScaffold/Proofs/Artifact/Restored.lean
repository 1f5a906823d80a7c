import GoScaffold.Proofs.Artifact.Alignment
import GoScaffold.Proofs.Artifact.Declared
import GoScaffold.Proofs.Artifact.Keys
import GoScaffold.Proofs.Artifact.Marked

set_option autoImplicit false

/-! # Deletes taken back

Where rows are marked as deleted, the functions that mark a row and bring it back run one statement
with two literals, and no other functions of the file are named for deletes. The values with an
opposite come in pairs, so the setting with the opposite value renders the same two statements the other
way round (`deletes_restored`). -/

namespace GoScaffold

open Go

/-! ## Opposite values -/

namespace LogicalDelete

theorem literal_inj {c : Column} {a b : String} : literal c a = literal c b ↔ bare a = bare b := by
  cases hnumeric : c.category.isNumeric with
  | true =>
    have htext (value : String) : literal c value = String.ofList (bare value) := by
      simp [literal, hnumeric, bare]
    rw [htext, htext, String.ofList_inj]
  | false =>
    rw [← String.toList_inj, toList_literal hnumeric, toList_literal hnumeric]
    constructor
    · intro h
      have hinner := List.append_cancel_right (List.cons.inj h).2
      rw [← Sql.undouble_double '\'' (bare a), hinner, Sql.undouble_double]
    · exact fun h => congrArg (Sql.doubled '\'') h

/-- The opposite of a value is another literal, and its opposite is the value. -/
theorem opposite?_eq_some {d : LogicalDelete} {value : String} (h : d.opposite? = some value) :
    opposite? ⟨d.column, value⟩ = some d.value ∧ ∀ c, literal c d.value ≠ literal c value := by
  have hpairs : ∀ pair ∈ opposites,
      opposites.lookup pair.2 = some pair.1 ∧ bare pair.1 ≠ bare pair.2 := by decide
  obtain ⟨before, after, hmem, -⟩ := List.lookup_eq_some_iff.1 h
  obtain ⟨hback, hother⟩ := hpairs (d.value, value) (by rw [hmem]; simp)
  exact ⟨hback, fun c hsame => hother (literal_inj.1 hsame)⟩

end LogicalDelete

/-! ## The functions for deletes -/

/-- Whether a name tells of a delete or of taking one back. -/
def namesDeletion (name : String) : Bool :=
  "Delete".toList.isPrefixOf name.toList || "UnDelete".toList.isPrefixOf name.toList

/-- Whether a function is named for a delete or for taking one back. -/
def Go.FuncDecl.isDeletion (f : FuncDecl) : Bool := namesDeletion f.name

/-- The options with this setting. -/
def Options.marking (o : Options) (d : LogicalDelete) : Options := { o with logicalDelete := some d }

namespace Accessor

/-- Whether the function deletes rows or brings them back. -/
def isDeletion (a : Accessor) : Bool := a.verb == "Delete" || a.verb == "UnDelete"

theorem isDeletion_of_mem_deletions {t : Table} {o : Options} {key : List Column} {a : Accessor}
    (h : a ∈ deletions t o key) : a.isDeletion = true := by
  rcases cases_of_mem_deletions h with rfl | ⟨c, literal, rfl⟩ | ⟨c, literal, rfl⟩ <;> rfl

/-- Of the functions of a table, those for deletes are the last ones. -/
theorem filter_ofTable (t : Table) (o : Options) :
    (ofTable t o).filter isDeletion = t.keys.unique.flatMap (deletions t o) := by
  have hwrites : (t.keys.unique.flatMap fun key => [update key, get key]).filter isDeletion = [] := by
    rw [List.filter_eq_nil_iff]
    intro a ha
    obtain ⟨key, -, ha⟩ := List.mem_flatMap.1 ha
    simp only [List.mem_cons, List.not_mem_nil, or_false] at ha
    rcases ha with rfl | rfl <;> simp [isDeletion, verb]
  have hlists : ((ListOrder.ofTable t o).flatMap fun order =>
      t.keys.index.map (fun key => listBy key order) ++ [list order]).filter isDeletion = [] := by
    rw [List.filter_eq_nil_iff]
    intro a ha
    obtain ⟨order, -, ha⟩ := List.mem_flatMap.1 ha
    rcases List.mem_append.1 ha with ha | ha
    · obtain ⟨key, -, rfl⟩ := List.mem_map.1 ha
      simp [isDeletion, verb]
    · rw [List.mem_singleton.1 ha]
      simp [isDeletion, verb]
  have hall : (t.keys.unique.flatMap (deletions t o)).filter isDeletion
      = t.keys.unique.flatMap (deletions t o) := by
    rw [List.filter_eq_self]
    intro a ha
    obtain ⟨key, -, ha⟩ := List.mem_flatMap.1 ha
    exact isDeletion_of_mem_deletions ha
  rw [ofTable, List.filter_append, List.filter_append, List.filter_append, hwrites, hlists, hall]
  rfl

/-- Where the table has the column of the setting, a row is marked with the literal of the value and
brought back with that of its opposite. -/
theorem deletions_marking {t : Table} {d : LogicalDelete} {c : Column}
    (h : t.column? d.column = some c) (o : Options) (key : List Column) :
    deletions t (o.marking d) key
      = .mark key c (LogicalDelete.literal c d.value)
        :: (d.opposite?.toList.map fun value => .restore key c (LogicalDelete.literal c value)) := by
  have hmark : markColumn? t (o.marking d).logicalDelete = some (c, d) := by
    show (t.column? d.column).map (fun c => (c, d)) = _
    rw [h]
    rfl
  rw [deletions, hmark]
  cases hopposite : d.opposite? <;>
    simp [LogicalDelete.restoreLiteral?, LogicalDelete.deleteLiteral, hopposite]

end Accessor

namespace Access

theorem isDeletion_declare {s : Signature} (hname : IsName s.name) (hreceiver : s.receiver = none)
    (body : Code) : (s.declare body).isDeletion = namesDeletion s.name := by
  rw [FuncDecl.isDeletion, FuncDecl.name_declare hname hreceiver]

theorem isDeletion_accessorFunction (t : Table) (o : Options) (a : Accessor) :
    (accessorFunction t o a).isDeletion = a.isDeletion := by
  have hname : IsName (a.signature t.modelName o.convention).name := a.isName_name (isName_modelName t)
  rw [accessorFunction, isDeletion_declare hname rfl, Accessor.isDeletion]
  cases a <;> simp [namesDeletion, Accessor.signature, Accessor.name, Accessor.verb, List.isPrefixOf]

theorem filter_preamble (c : Convention) (rounds : Bool) :
    (functions (preamble c rounds)).filter FuncDecl.isDeletion = [] := by
  have hshared : ∀ s ∈ sharedSignatures c rounds, IsName s.name ∧ s.receiver = none
      ∧ namesDeletion s.name = false := by
    cases c <;> cases rounds <;> decide
  rw [List.filter_eq_nil_iff]
  intro f hf
  have hhead : f.head ∈ (functions (preamble c rounds)).map (·.head) := List.mem_map_of_mem hf
  rw [heads_preamble] at hhead
  obtain ⟨s, hs, htext⟩ := List.mem_map.1 hhead
  obtain ⟨hname, hreceiver, hother⟩ := hshared s hs
  -- A function is named by its head alone.
  have hsame : f.isDeletion = (s.declare []).isDeletion := by
    rw [FuncDecl.isDeletion, FuncDecl.name, ← htext]
    rfl
  rw [hsame, isDeletion_declare hname hreceiver, hother]
  decide

/-- The functions that delete by a key. -/
def deletionFunctions (t : Table) (o : Options) (key : List Column) : List FuncDecl :=
  (Accessor.deletions t o key).map (accessorFunction t o)

theorem filter_tableFunctions (t : Table) (o : Options) :
    (tableFunctions t o).filter FuncDecl.isDeletion
      = t.keys.unique.flatMap (deletionFunctions t o) := by
  have hnone {s : Signature} (hname : IsName s.name) (hreceiver : s.receiver = none)
      (hfront : ∃ rest, s.name = "scan" ++ rest ∨ s.name = "queryMany" ++ rest) (body : Code) :
      [s.declare body].filter FuncDecl.isDeletion = [] := by
    have hother : (s.declare body).isDeletion = false := by
      rw [isDeletion_declare hname hreceiver]
      obtain ⟨rest, hs | hs⟩ := hfront <;> simp [hs, namesDeletion, List.isPrefixOf]
    rw [List.filter_cons_of_neg (by simp [hother]), List.filter_nil]
  have hscanName : IsName (scanSignature t.modelName).name :=
    isName_append (by decide) (isName_modelName t)
  have hpageName : IsName (pageSignature t.modelName).name :=
    isName_append (by decide) (isName_modelName t)
  obtain ⟨scanBody, hscan⟩ := scanCode_eq t
  obtain ⟨pageBody, hpage⟩ := pageCode_eq t
  have hfilter : FuncDecl.isDeletion ∘ accessorFunction t o = Accessor.isDeletion := by
    funext a
    rw [Function.comp_apply, isDeletion_accessorFunction]
  have hkeyed : deletionFunctions t o
      = fun key => (Accessor.deletions t o key).map (accessorFunction t o) := rfl
  rw [tableFunctions, hscan, hpage, functions_signed, functions_signed, List.filter_append,
    List.filter_append, hnone hscanName rfl ⟨_, .inl rfl⟩, hnone hpageName rfl ⟨_, .inr rfl⟩,
    List.nil_append, List.nil_append, List.filter_map, hfilter, Accessor.filter_ofTable,
    List.map_flatMap, hkeyed]

/-- The functions of the file that are named for deletes are those of each unique group of each table. -/
theorem filter_functions_file (tables : List Table) (o : Options) (today : String) :
    (functions (file tables o today).body).filter FuncDecl.isDeletion
      = tables.flatMap fun t => t.keys.unique.flatMap (deletionFunctions t o) := by
  rw [functions_file, List.filter_append, filter_preamble, List.nil_append, List.filter_flatMap]
  simp only [filter_tableFunctions]

/-- A function that runs one statement with the values of a key. -/
def keyedFunction (t : Table) (o : Options) (key : List Column) (verb sql : String) : FuncDecl :=
  Signature.declare
    ⟨none, verb ++ t.modelName ++ "By" ++ groupSuffix key, "db DataSource, s *" ++ t.modelName,
      o.convention.resultTypes ["int64"]⟩
    (block "if s == nil" (o.convention.fail ["0"] "ErrNilPointer")
      ++ line ("query := " ++ quote sql)
      ++ o.convention.forward ["rows"]
        ("rowsAffected(db.Exec(query, " ++ Bound.arguments (key.map (Bound.ofColumn o)) ++ "))"))

theorem flatMap_executeByKey (o : Options) (key : List Column) (model sql : String) :
    (Accessor.executeByKey o key sql).flatMap (Step.code model o.convention ["0"])
      = block "if s == nil" (o.convention.fail ["0"] "ErrNilPointer")
        ++ line ("query := " ++ quote sql)
        ++ o.convention.forward ["rows"]
          ("rowsAffected(db.Exec(query, " ++ Bound.arguments (key.map (Bound.ofColumn o)) ++ "))") := by
  simp [Accessor.executeByKey, Step.code, QueryPart.text, Text.join]

/-- The function of an accessor that runs one statement with the values of a key. -/
theorem accessorFunction_keyed {t : Table} {o : Options} {key : List Column} {a : Accessor}
    {verb sql : String} (hname : a.name t.modelName = verb ++ t.modelName ++ "By" ++ groupSuffix key)
    (hsteps : a.steps t o = Accessor.executeByKey o key sql) (hpaged : a.isPaged = false)
    (htypes : a.resultTypes t.modelName = ["int64"]) (hzeros : a.zeros = ["0"]) :
    accessorFunction t o a = keyedFunction t o key verb sql := by
  rw [accessorFunction, hsteps, hzeros, flatMap_executeByKey, Accessor.signature, hname, htypes, hpaged,
    if_neg (by decide), String.append_empty, keyedFunction]

/-- The setting is not in the functions that run a statement. -/
theorem keyedFunction_marking (t : Table) (o : Options) (d : LogicalDelete) (key : List Column)
    (verb sql : String) : keyedFunction t (o.marking d) key verb sql = keyedFunction t o key verb sql :=
  rfl

/-- Where the table has the column of the setting, a row is marked and brought back by one statement,
with the literal of the value and that of its opposite. -/
theorem deletionFunctions_marking {t : Table} {d : LogicalDelete} {c : Column}
    (h : t.column? d.column = some c) (o : Options) (key : List Column) :
    deletionFunctions t (o.marking d) key
      = keyedFunction t o key "Delete" (Accessor.markSql t key c (LogicalDelete.literal c d.value))
        :: d.opposite?.toList.map fun value =>
          keyedFunction t o key "UnDelete" (Accessor.markSql t key c (LogicalDelete.literal c value)) := by
  have hmark (literal : String) : accessorFunction t (o.marking d) (.mark key c literal)
      = keyedFunction t o key "Delete" (Accessor.markSql t key c literal) := by
    rw [accessorFunction_keyed rfl rfl rfl rfl rfl, keyedFunction_marking]
  have hrestore (literal : String) : accessorFunction t (o.marking d) (.restore key c literal)
      = keyedFunction t o key "UnDelete" (Accessor.markSql t key c literal) := by
    rw [accessorFunction_keyed rfl rfl rfl rfl rfl, keyedFunction_marking]
  rw [deletionFunctions, Accessor.deletions_marking h, List.map_cons, hmark, List.map_map]
  refine congrArg _ (List.map_congr_left fun value _ => ?_)
  rw [Function.comp_apply, hrestore]

end Access

/-! ## Deletes and restores -/

/-- What marks a row and what brings it back send one statement, with the literal of the value and that
of its opposite. -/
theorem Accessor.calls_deletions_marking {t : Table} {d : LogicalDelete} {c : Column}
    (h : t.column? d.column = some c) (o : Options) (key : List Column) (supplied : Supplied) :
    (deletions t (o.marking d) key).map (·.calls t (o.marking d) (some supplied))
      = (d.value :: d.opposite?.toList).map fun value =>
        .ok [⟨markSql t key c (LogicalDelete.literal c value),
          key.map fun k => .field (Bound.ofColumn o k)⟩] := by
  have hcall (literal : String) : (Statement.write c literal key).call t (o.marking d)
      = ⟨markSql t key c literal, key.map fun k => .field (Bound.ofColumn o k)⟩ := by
    rw [Statement.call_write, List.map_map]
    rfl
  rw [deletions_marking h, List.map_cons, List.map_cons, List.map_map, calls_eq_plan, plan, Except.map,
    List.map_singleton, hcall]
  refine congrArg _ (List.map_congr_left fun value _ => ?_)
  rw [Function.comp_apply, calls_eq_plan, plan, Except.map, List.map_singleton, hcall]

/-- In the file of data access functions, each unique group of a table that has the column of the setting
has one function that marks its row, and one that brings it back if the value has an opposite, and no
other functions are named for deletes. They run one statement, with the literal of the value and that of
the opposite, and bind the same fields to its placeholders. The literals differ, and the setting with the
opposite value exchanges the two statements. -/
theorem deletes_restored {t : Table} {d : LogicalDelete} {c : Column}
    (h : t.column? d.column = some c) (o : Options) :
    (∀ (tables : List Table) (today : String),
      (functions (Access.file tables (o.marking d) today).body).filter FuncDecl.isDeletion
        = tables.flatMap fun s => s.keys.unique.flatMap (Access.deletionFunctions s (o.marking d)))
    ∧ (∀ key, Access.deletionFunctions t (o.marking d) key
      = Access.keyedFunction t o key "Delete" (Accessor.markSql t key c (LogicalDelete.literal c d.value))
        :: d.opposite?.toList.map fun value =>
          Access.keyedFunction t o key "UnDelete"
            (Accessor.markSql t key c (LogicalDelete.literal c value)))
    ∧ (∀ key supplied,
      (Accessor.deletions t (o.marking d) key).map (·.calls t (o.marking d) (some supplied))
        = (d.value :: d.opposite?.toList).map fun value =>
          .ok [⟨"update " ++ Sql.backticked t.name ++ " set " ++ Sql.backticked c.name ++ " = "
              ++ LogicalDelete.literal c value ++ " where " ++ keyCondition key,
            key.map fun k => .field (Bound.ofColumn o k)⟩])
    ∧ ∀ value, d.opposite? = some value →
      LogicalDelete.literal c d.value ≠ LogicalDelete.literal c value
        ∧ ∀ key, Access.deletionFunctions t (o.marking ⟨d.column, value⟩) key
          = [Access.keyedFunction t o key "Delete"
              (Accessor.markSql t key c (LogicalDelete.literal c value)),
            Access.keyedFunction t o key "UnDelete"
              (Accessor.markSql t key c (LogicalDelete.literal c d.value))] := by
  refine ⟨fun tables today => Access.filter_functions_file tables _ today,
    Access.deletionFunctions_marking h o, Accessor.calls_deletions_marking h o, fun value hvalue => ?_⟩
  obtain ⟨hback, hother⟩ := LogicalDelete.opposite?_eq_some hvalue
  refine ⟨hother c, fun key => ?_⟩
  rw [Access.deletionFunctions_marking (d := ⟨d.column, value⟩) h, hback]
  rfl

/-- A table whose rows are marked in a column of numbers. -/
def deptTable : Table where
  name := "tb_dept"
  columns := [
    { name := "id", declaredType := "INT", flags := { primary := true } },
    { name := "deleted", declaredType := "TINYINT" }]

/-- A mark of `1` is taken back by `0`, and one of `0` by `1`. -/
theorem deletes_restored_deptTable :
    deptTable.column? "deleted" = some { name := "deleted", declaredType := "TINYINT" }
      ∧ (∀ key, Access.deletionFunctions deptTable (({} : Options).marking ⟨"deleted", "1"⟩) key
        = [Access.keyedFunction deptTable {} key "Delete"
            ("update `tb_dept` set `deleted` = 1" ++ " where " ++ keyCondition key),
          Access.keyedFunction deptTable {} key "UnDelete"
            ("update `tb_dept` set `deleted` = 0" ++ " where " ++ keyCondition key)])
      ∧ ∀ key, Access.deletionFunctions deptTable (({} : Options).marking ⟨"deleted", "0"⟩) key
        = [Access.keyedFunction deptTable {} key "Delete"
            ("update `tb_dept` set `deleted` = 0" ++ " where " ++ keyCondition key),
          Access.keyedFunction deptTable {} key "UnDelete"
            ("update `tb_dept` set `deleted` = 1" ++ " where " ++ keyCondition key)] := by
  have hcolumn : deptTable.column? "deleted" = some { name := "deleted", declaredType := "TINYINT" } := by
    decide
  have hone : "update " ++ Sql.backticked deptTable.name ++ " set " ++ Sql.backticked "deleted" ++ " = "
      ++ LogicalDelete.literal { name := "deleted", declaredType := "TINYINT" } "1"
      = "update `tb_dept` set `deleted` = 1" := by decide
  have hzero : "update " ++ Sql.backticked deptTable.name ++ " set " ++ Sql.backticked "deleted" ++ " = "
      ++ LogicalDelete.literal { name := "deleted", declaredType := "TINYINT" } "0"
      = "update `tb_dept` set `deleted` = 0" := by decide
  obtain ⟨-, hmarked, -, hswapped⟩ := deletes_restored (d := ⟨"deleted", "1"⟩) hcolumn {}
  refine ⟨hcolumn, fun key => ?_, fun key => ?_⟩
  · have hfunctions := hmarked key
    rw [Accessor.markSql, hone] at hfunctions
    rw [hfunctions, ← hzero]
    rfl
  · have hfunctions := (hswapped "0" rfl).2 key
    rw [Accessor.markSql, Accessor.markSql, hone, hzero] at hfunctions
    exact hfunctions

end GoScaffold
