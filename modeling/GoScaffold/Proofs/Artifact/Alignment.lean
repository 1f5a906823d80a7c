import GoScaffold.Proofs.Artifact.Placeholders

set_option autoImplicit false

/-! # Statements and arguments are aligned

Every accessor, on every record, sends statements that bind one argument to each placeholder, the
field of the very column that the placeholder is for (`Accessor.calls_aligned`). Which statements
these are is told by `Accessor.plan`. -/

namespace GoScaffold

open Piece

/-! ## The texts of statements -/

namespace Statement

@[simp] theorem textOf_names (columns : List Column) :
    textOf (names columns) = Text.join ", " (columns.map fun c => Sql.backticked c.name) := by
  rw [names, textOf_separated, List.map_map]
  congr 1
  apply List.map_congr_left
  intro c _
  exact String.append_empty

theorem textOf_equation (c : Column) : textOf (equation c) = equalsPlaceholder c := by
  rw [equation, textOf_cons, textOf_cons, textOf_cons, textOf_nil, equalsPlaceholder]
  show Sql.backticked c.name ++ (" = " ++ ("?" ++ "")) = Sql.backticked c.name ++ " = ?"
  congr 1

@[simp] theorem textOf_equations (sep : String) (columns : List Column) :
    textOf (separated sep (columns.map equation)) = Text.join sep (columns.map equalsPlaceholder) := by
  have hequation : textOf ∘ equation = equalsPlaceholder := funext textOf_equation
  rw [textOf_separated, List.map_map, hequation]

@[simp] theorem textOf_matching (columns : List Column) :
    textOf (matching columns) = " where " ++ keyCondition columns := by
  rw [matching, textOf_cons, textOf_equations, keyCondition]
  rfl

@[simp] theorem textOf_values (columns : List Column) :
    textOf (values columns) = placeholdersText columns.length := by
  rw [values, textOf_separated, List.map_map, placeholdersText_eq_join]
  congr 1
  exact List.map_eq_replicate_iff.2 fun c _ => rfl

@[simp] theorem textOf_ordered (order : ListOrder) : textOf (ordered order) = order.clause := by
  cases order with
  | unordered => rfl
  | ascending columns => rw [ordered, textOf_cons, textOf_names]; rfl
  | descending columns =>
    rw [ordered, textOf_cons, textOf_separated, List.map_map]
    rfl

/-! ## The placeholders of statements -/

@[simp] theorem slots_names (columns : List Column) : slots (names columns) = [] := by
  rw [names, slots_separated, List.flatMap_map]
  exact List.flatMap_eq_nil_iff.2 fun c _ => rfl

@[simp] theorem slots_equations (sep : String) (columns : List Column) :
    slots (separated sep (columns.map equation)) = columns.map Slot.column := by
  rw [slots_separated, List.flatMap_map, List.map_eq_flatMap]
  rfl

@[simp] theorem slots_matching (columns : List Column) :
    slots (matching columns) = columns.map Slot.column := by
  rw [matching, slots_words, slots_equations]

@[simp] theorem slots_values (columns : List Column) : slots (values columns) = columns.map Slot.column := by
  rw [values, slots_separated, List.flatMap_map, List.map_eq_flatMap]
  rfl

@[simp] theorem slots_ordered (order : ListOrder) : slots (ordered order) = [] := by
  cases order with
  | unordered => rfl
  | ascending columns => exact slots_names columns
  | descending columns =>
    rw [ordered, slots_words, slots_separated, List.flatMap_map]
    exact List.flatMap_eq_nil_iff.2 fun c _ => rfl

/-- The values of placeholders for columns are those columns' fields. -/
theorem map_argument_column (o : Options) (columns : List Column) :
    (columns.map Slot.column).map (Slot.argument o)
      = (columns.map (Bound.ofColumn o)).map Argument.field := by
  rw [List.map_map, List.map_map]
  rfl

/-! ## Statements as they are sent -/

/-- The condition of a list as text. -/
def conditionText (condition : Option (List Column)) : String :=
  match condition with
  | none => ""
  | some columns => " where " ++ keyCondition columns

@[simp] theorem textOf_condition (condition : Option (List Column)) :
    textOf ((condition.map matching).getD []) = conditionText condition := by
  cases condition with
  | none => rfl
  | some columns => exact textOf_matching columns

@[simp] theorem slots_condition (condition : Option (List Column)) :
    slots ((condition.map matching).getD []) = (condition.getD []).map Slot.column := by
  cases condition with
  | none => rfl
  | some columns => exact slots_matching columns

theorem call_insert (t : Table) (o : Options) (columns : List Column) :
    (insert columns).call t o
      = ⟨"insert into " ++ Sql.backticked t.name ++ " ("
            ++ Text.join ", " (columns.map fun c => Sql.backticked c.name) ++ ") values ("
            ++ placeholdersText columns.length ++ ")",
          (columns.map (Bound.ofColumn o)).map .field⟩ := by
  rw [call, ← map_argument_column]
  simp [pieces, text, String.append_assoc]

theorem call_update (t : Table) (o : Options) (sets key : List Column) :
    (update sets key).call t o
      = ⟨"update " ++ Sql.backticked t.name ++ " set "
            ++ Text.join ", " (sets.map equalsPlaceholder) ++ " where " ++ keyCondition key,
          ((sets ++ key).map (Bound.ofColumn o)).map .field⟩ := by
  rw [call, ← map_argument_column]
  simp [pieces, text, String.append_assoc]

theorem call_select (t : Table) (o : Options) (key : List Column) :
    (select key).call t o
      = ⟨"select " ++ Access.selectList t ++ " from " ++ Sql.backticked t.name ++ " where "
            ++ keyCondition key,
          (key.map (Bound.ofColumn o)).map .field⟩ := by
  rw [call, ← map_argument_column, Access.selectList]
  simp [pieces, text, String.append_assoc]

theorem call_count (t : Table) (o : Options) (condition : Option (List Column)) :
    (count condition).call t o
      = ⟨"select count(*) from " ++ Sql.backticked t.name ++ conditionText condition,
          ((condition.getD []).map (Bound.ofColumn o)).map .field⟩ := by
  rw [call, ← map_argument_column]
  simp [pieces, text, String.append_assoc]

theorem call_page (t : Table) (o : Options) (condition : Option (List Column))
    (order : ListOrder) :
    (page condition order).call t o
      = ⟨"select " ++ Access.selectList t ++ " from " ++ Sql.backticked t.name
            ++ conditionText condition ++ order.clause ++ " limit ?, ?",
          ((condition.getD []).map (Bound.ofColumn o)).map .field
            ++ Access.pageNumbers.map .page⟩ := by
  rw [call, ← map_argument_column, Access.selectList]
  simp [pieces, text, String.append_assoc]
  rfl

theorem call_delete (t : Table) (o : Options) (key : List Column) :
    (delete key).call t o
      = ⟨"delete from " ++ Sql.backticked t.name ++ " where " ++ keyCondition key,
          (key.map (Bound.ofColumn o)).map .field⟩ := by
  rw [call, ← map_argument_column]
  simp [pieces, text, String.append_assoc]

theorem call_write (t : Table) (o : Options) (c : Column) (sql : String) (key : List Column) :
    (write c sql key).call t o
      = ⟨Accessor.markSql t key c sql, (key.map (Bound.ofColumn o)).map .field⟩ := by
  rw [call, ← map_argument_column, Accessor.markSql]
  simp [pieces, text, String.append_assoc]

/-! ## The question marks of statements -/

theorem isPlain_names (columns : List Column) : (names columns).all isPlain = true := by
  refine isPlain_separated (by decide) fun ps hps => ?_
  obtain ⟨c, -, rfl⟩ := List.mem_map.1 hps
  rfl

theorem isPlain_equations {sep : String} (hsep : (Piece.words sep).isPlain = true)
    (columns : List Column) : (separated sep (columns.map equation)).all isPlain = true := by
  refine isPlain_separated hsep fun ps hps => ?_
  obtain ⟨c, -, rfl⟩ := List.mem_map.1 hps
  have hwords : (Piece.words " = ").isPlain = true := by decide
  rw [equation, List.all_cons, List.all_cons, hwords]
  rfl

theorem isPlain_matching (columns : List Column) : (matching columns).all isPlain = true := by
  have hwhere : (Piece.words " where ").isPlain = true := by decide
  rw [matching, List.all_cons, hwhere, isPlain_equations (by decide)]
  rfl

theorem isPlain_values (columns : List Column) : (values columns).all isPlain = true := by
  refine isPlain_separated (by decide) fun ps hps => ?_
  obtain ⟨c, -, rfl⟩ := List.mem_map.1 hps
  rfl

theorem isPlain_condition (condition : Option (List Column)) :
    ((condition.map matching).getD []).all isPlain = true := by
  cases condition with
  | none => rfl
  | some columns => exact isPlain_matching columns

theorem isPlain_ordered (order : ListOrder) : (ordered order).all isPlain = true := by
  cases order with
  | unordered => rfl
  | ascending columns =>
    have hwords : (Piece.words " order by ").isPlain = true := by decide
    rw [ordered, List.all_cons, hwords, isPlain_names]
    rfl
  | descending columns =>
    have hwords : (Piece.words " order by ").isPlain = true := by decide
    have hrest : (separated ", " (columns.map fun c => [Piece.name c.name, .words " desc"])).all
        isPlain = true := by
      refine isPlain_separated (by decide) fun ps hps => ?_
      obtain ⟨c, -, rfl⟩ := List.mem_map.1 hps
      have hdesc : (Piece.words " desc").isPlain = true := by decide
      rw [List.all_cons, List.all_cons, hdesc]
      rfl
    rw [ordered, List.all_cons, hwords, hrest]
    rfl

theorem isPlain_pieces (t : Table) (s : Statement) : (s.pieces t).all isPlain = true := by
  have hname : ∀ s, (Piece.name s).isPlain = true := fun _ => rfl
  have hliteral : ∀ sql, (Piece.literal sql).isPlain = true := fun _ => rfl
  have hsets : ∀ columns : List Column, (separated ", " (columns.map equation)).all isPlain = true :=
    fun columns => isPlain_equations (by decide) columns
  cases s <;>
    (simp only [pieces, List.cons_append, List.append_assoc, List.all_append, List.all_cons,
        List.all_nil, List.nil_append, isPlain_names, isPlain_values, isPlain_matching, hsets,
        isPlain_condition, isPlain_ordered, hname, hliteral, Bool.and_true, Bool.true_and]
     decide)

end Statement

/-! ## Which statements are sent -/

namespace Accessor

/-- The columns that an insert always names, then those that it names if they are supplied. -/
def inserted (t : Table) (supplied : Supplied) : List Column :=
  (insertable t).filter (fun c => !c.hasLiteralDefault)
    ++ ((insertable t).filter (·.hasLiteralDefault)).filter supplied

/-- The condition of a list of all rows, or of those that have the supplied values of a record. -/
def listed (t : Table) (record : Option Supplied) : Option (List Column) :=
  match record with
  | none => none
  | some supplied =>
    let columns := t.columns.filter supplied
    if columns.isEmpty then none else some columns

/-- The statements of a page. -/
def paged (condition : Option (List Column)) (order : ListOrder) : List Statement :=
  [.count condition, .page condition order]

/-- The statements that a function sends on a record, or why it sends none. -/
def plan (t : Table) : Accessor → Option Supplied → Except Refusal (List Statement)
  | .list order, record => .ok (paged (listed t record) order)
  | _, none => .error .nilPointer
  | .create, some supplied => .ok [.insert (inserted t supplied)]
  | .update key, some supplied =>
    let sets := (updatable t key).filter supplied
    if sets.isEmpty then .error .nothingToUpdate else .ok [.update sets key]
  | .get key, some _ => .ok [.select key]
  | .listBy key order, some _ => .ok (paged (some key) order)
  | .delete key, some _ => .ok [.delete key]
  | .mark key c sql, some _ => .ok [.write c sql key]
  | .restore key c sql, some _ => .ok [.write c sql key]

theorem calls_create (t : Table) (o : Options) (supplied : Supplied) :
    Accessor.create.calls t o (some supplied)
      = .ok [Statement.call t o (.insert (inserted t supplied))] := by
  rw [calls, steps, List.partition_eq_filter_filter, execAll_append, execAll_append]
  have hstart : execAll t (some supplied) Frame.start [.rejectNil,
      .startColumns ((insertable t).filter (not ∘ (·.hasLiteralDefault))),
      .startValues (((insertable t).filter (not ∘ (·.hasLiteralDefault))).map (Bound.ofColumn o))]
      = .ok { Frame.start with
          columns := ((insertable t).filter (not ∘ (·.hasLiteralDefault))).map
            fun c => Sql.backticked c.name
          args := (((insertable t).filter (not ∘ (·.hasLiteralDefault))).map
            (Bound.ofColumn o)).map .field } := rfl
  rw [hstart]
  simp only [Except.bind]
  rw [execAll_supplies, Statement.call_insert, inserted]
  simp [Step.exec, Except.bind, Except.map, Frame.gather, Frame.setGathered, Frame.gathered, Frame.send,
    Frame.start, queryValue, QueryPart.value, Text.concat, Function.comp_def, String.append_assoc]

theorem calls_update (t : Table) (o : Options) (key : List Column) (supplied : Supplied) :
    (Accessor.update key).calls t o (some supplied)
      = if ((updatable t key).filter supplied).isEmpty then .error .nothingToUpdate
        else .ok [Statement.call t o (.update ((updatable t key).filter supplied) key)] := by
  rw [calls, steps, execAll_append, execAll_append]
  have hstart : execAll t (some supplied) Frame.start [.rejectNil,
      .startGathering .sets (updatable t key).length,
      .startNoValues ((updatable t key).length + key.length)] = .ok Frame.start := rfl
  rw [hstart]
  simp only [Except.bind]
  rw [execAll_supplies, Statement.call_update]
  by_cases hsets : ((updatable t key).filter supplied).isEmpty <;>
    simp [hsets, Step.exec, Except.bind, Except.map, Frame.gather, Frame.setGathered,
      Frame.gathered, Frame.send, Frame.start, queryValue, QueryPart.value, Text.concat,
      String.append_assoc]

theorem calls_executeByKey (t : Table) (o : Options) (key : List Column) (sql : String)
    (supplied : Supplied) :
    (execAll t (some supplied) Frame.start (executeByKey o key sql)).map (·.sent)
      = .ok [⟨sql, (key.map (Bound.ofColumn o)).map .field⟩] := by
  have hsql : queryValue t Frame.start [.fixed sql] = sql := String.append_empty
  show Except.ok [Call.mk (queryValue t Frame.start [.fixed sql]) _] = _
  rw [hsql]

theorem fetchPage_sent (t : Table) (o : Options) (f : Frame) (condition : Option (List Column))
    (order : ListOrder) (hsent : f.sent = [])
    (hcondition : f.condition = Statement.conditionText condition)
    (hargs : f.args = ((condition.getD []).map (Bound.ofColumn o)).map .field) :
    (f.fetchPage t order).sent = (paged condition order).map (Statement.call t o) := by
  rw [paged, List.map_cons, List.map_cons, List.map_nil, Statement.call_count, Statement.call_page]
  simp [Frame.fetchPage, Frame.send, hsent, hargs, hcondition, queryValue, QueryPart.value,
    Access.countQuery, Access.pageQuery, Text.concat, String.append_assoc]

theorem calls_list (t : Table) (o : Options) (order : ListOrder) (record : Option Supplied) :
    (Accessor.list order).calls t o record
      = .ok ((paged (listed t record) order).map (Statement.call t o)) := by
  cases record with
  | none =>
    show Except.ok (Frame.fetchPage t Frame.start order).sent = _
    rw [fetchPage_sent t o Frame.start none order rfl rfl rfl]
    rfl
  | some supplied =>
    have hlist : execAll t (some supplied) Frame.start (steps t o (.list order))
        = .ok (Frame.fetchPage t { Frame.start with
            conditions := (t.columns.filter supplied).map equalsPlaceholder
            args := ((t.columns.filter supplied).map (Bound.ofColumn o)).map .field
            condition := Statement.conditionText (listed t (some supplied)) } order) := by
      -- The conditions and their values are gathered in one run, so they come in one order.
      show ((supplies o .conditions equalsPlaceholder t.columns).foldlM
        (Supply.exec (some supplied)) Frame.start).bind _ = _
      rw [foldlM_supplies]
      by_cases hcolumns : (t.columns.filter supplied).isEmpty
      · simp [hcolumns, listed, Step.exec, Except.bind, Frame.gather, Frame.setGathered,
          Frame.gathered, Frame.start, Statement.conditionText]
        rfl
      · simp [hcolumns, listed, Step.exec, Except.bind, Frame.gather, Frame.setGathered,
          Frame.gathered, Frame.start, Statement.conditionText, keyCondition]
        rfl
    have hargs : ((t.columns.filter supplied).map (Bound.ofColumn o)).map Argument.field
        = (((listed t (some supplied)).getD []).map (Bound.ofColumn o)).map .field := by
      rw [listed]
      by_cases hcolumns : (t.columns.filter supplied).isEmpty
      · rw [if_pos hcolumns, List.isEmpty_iff.1 hcolumns]
        rfl
      · rw [if_neg hcolumns]
        rfl
    rw [calls, hlist]
    exact congrArg Except.ok (fetchPage_sent t o _ _ order rfl rfl hargs)

/-- Every accessor sends the statements of its plan, each with the values of its placeholders. -/
theorem calls_eq_plan (t : Table) (o : Options) (a : Accessor) (record : Option Supplied) :
    a.calls t o record = (a.plan t record).map (List.map (Statement.call t o)) := by
  -- Without a record all but the list refuse, on both sides alike.
  cases a with
  | list order => exact calls_list t o order record
  | create =>
    cases record with
    | none => rfl
    | some supplied => exact calls_create t o supplied
  | update key =>
    cases record with
    | none => rfl
    | some supplied =>
      rw [calls_update, plan]
      by_cases hsets : ((updatable t key).filter supplied).isEmpty
      · simp [hsets, Except.map]
      · simp [hsets, Except.map]
  | get key =>
    cases record with
    | none => rfl
    | some supplied =>
      rw [plan, Except.map, List.map_cons, List.map_nil, Statement.call_select]
      show Except.ok [Call.mk (queryValue t Frame.start _) _] = _
      simp [queryValue, QueryPart.value, Text.concat, String.append_assoc]
  | listBy key order =>
    cases record with
    | none => rfl
    | some supplied =>
      exact congrArg Except.ok (fetchPage_sent t o { Frame.start with
        condition := " where " ++ keyCondition key
        args := (key.map (Bound.ofColumn o)).map .field } (some key) order rfl rfl rfl)
  | delete key =>
    cases record with
    | none => rfl
    | some supplied =>
      rw [calls, steps, calls_executeByKey, plan, Except.map, List.map_cons, List.map_nil,
        Statement.call_delete]
  | mark key c sql | restore key c sql =>
    cases record with
    | none => rfl
    | some supplied =>
      rw [calls, steps, calls_executeByKey, plan, Except.map, List.map_cons, List.map_nil,
        Statement.call_write]

end Accessor

end GoScaffold
