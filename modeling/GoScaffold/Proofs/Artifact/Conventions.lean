import GoScaffold.Proofs.Artifact.Declared
import GoScaffold.Proofs.Go.Reporting
import Mathlib.Data.List.Forall2

set_option autoImplicit false

/-! # One set of accessors, two conventions

The file of data access functions under the convention that returns errors and under the one that
panics: both declare the same functions, and those of a table have one body under either, but for
the statements that report failures (`Access.file_conventions`). -/

namespace GoScaffold

open Go Text

/-! ## Statements that report failures -/

section

variable {types : List String}

/-- Whether no line with this front is about failures. -/
def isOther (front : String) : Bool :=
  ruledOut ["return ", "panic(", "assertErrorNil("] front.toList
    && !compatible errorTest front.toList

theorem isReport_append {front : String} (h : isOther front = true) (rest : String) :
    isReport (front ++ rest).toList = false := by
  rw [isOther, Bool.and_eq_true, Bool.not_eq_true'] at h
  rw [isReport, Bool.or_eq_false_iff, String.toList_append, beginsWith_append h.1, beq_eq_false_iff_ne]
  refine ⟨rfl, fun htest => ?_⟩
  have hcompatible : compatible errorTest front.toList = true :=
    compatible_of_append (t := rest.toList) (by rw [htest]; exact List.append_nil _)
  rw [hcompatible] at h
  cases h.2

theorem counterpart_line {text : String} (h : isReport text.toList = false) :
    Counterpart types (line text) (line text) := .site (.same ⟨0, text⟩ h)

/-- A line that is told by its front. -/
theorem counterpart_front (front : String) (h : isOther front = true) (rest : String) :
    Counterpart types (line (front ++ rest)) (line (front ++ rest)) :=
  counterpart_line (isReport_append h rest)

theorem counterpart_block {head : String} {c d : Code}
    (hhead : isReport (head ++ " \x7b").toList = false) (h : Counterpart types c d) :
    Counterpart types (block head c) (block head d) :=
  .append (.append (counterpart_line hhead) (.indent h)) (counterpart_line (by decide))

theorem counterpart_flatMap {α : Type} {f g : α → Code} {xs : List α}
    (h : ∀ x ∈ xs, Counterpart types (f x) (g x)) :
    Counterpart types (xs.flatMap f) (xs.flatMap g) := by
  induction xs with
  | nil => exact .nil
  | cons x xs ih =>
    exact .append (h x List.mem_cons_self) (ih fun y hy => h y (List.mem_cons_of_mem _ hy))

namespace Convention

theorem counterpart_fail {error : String} (h : IsName error) (hempty : error ≠ "")
    (hnil : error ≠ "nil") :
    Counterpart types (fail .returned (types.map zeroValue) error)
      (fail .panicking (types.map zeroValue) error) := by
  have hreturn : fail .returned (types.map zeroValue) error
      = line ("return " ++ join ", " (types.map zeroValue ++ [error])) := returning_concat _ _
  rw [hreturn]
  exact .site (.raise error h hempty hnil)

theorem counterpart_check :
    Counterpart types (check .returned (types.map zeroValue)) (check .panicking (types.map zeroValue)) := by
  have hreturn : check .returned (types.map zeroValue)
      = block "if err != nil" (line ("return " ++ join ", " (types.map zeroValue ++ ["err"]))) := by
    rw [check, returning_concat]
  rw [hreturn]
  exact .site .check

theorem counterpart_forward {name : String} {names : List String}
    (hnames : AreVariables (name :: names)) (hlength : types.length = (name :: names).length)
    {call : String} (hcall : call.toList.getLast? = some ')') :
    Counterpart types (forward .returned (name :: names) call) (forward .panicking (name :: names) call) :=
  .site (.forward (name :: names) call hnames hlength.symm hcall)

theorem counterpart_succeed {name : String} {names : List String}
    (hnames : AreVariables (name :: names)) (hlength : types.length = (name :: names).length) :
    Counterpart types (succeed .returned (name :: names)) (succeed .panicking (name :: names)) :=
  .site (.succeed (name :: names) hnames hlength.symm)

/-- A call ends with the parenthesis that closes it. -/
theorem getLast?_call {ending : String} (h : ending.toList.getLast? = some ')') (front : String) :
    (front ++ ending).toList.getLast? = some ')' := by
  rw [String.toList_append, List.getLast?_append, h, Option.some_or]

end Convention

end

/-! ## Steps -/

/-- Whether the step fits a function with so many results besides the error. -/
def Step.Fits (results : Nat) : Step → Prop
  | .insert | .execute | .executeWith _ | .fetch _ => results = 1
  | .fetchPage _ => results = 2
  | _ => True

section

variable (model : String) {types : List String}

theorem isReport_suppliedTest (c : Column) :
    isReport ("if " ++ c.suppliedTest c.ofRecord ++ " \x7b").toList = false := by
  have hfield (rest : String) : isReport ("if s." ++ rest).toList = false :=
    isReport_append (by decide) rest
  have hnot (rest : String) : isReport ("if !s." ++ rest).toList = false :=
    isReport_append (by decide) rest
  have htest : (∃ rest, c.suppliedTest c.ofRecord = "s." ++ rest)
      ∨ ∃ rest, c.suppliedTest c.ofRecord = "!s." ++ rest := by
    unfold Column.suppliedTest Column.ofRecord
    split
    · exact .inl ⟨c.fieldName ++ " != nil", by rw [String.append_assoc]⟩
    · cases c.category with
      | bool => exact .inl ⟨c.fieldName, rfl⟩
      | int32 | int64 | float => exact .inl ⟨c.fieldName ++ " != 0", by simp only [String.append_assoc]⟩
      | text => exact .inl ⟨c.fieldName ++ " != \"\"", by simp only [String.append_assoc]⟩
      | temporal => exact .inr ⟨c.fieldName ++ ".IsZero()", by simp [← String.toList_inj]⟩
      | other => exact .inl ⟨c.fieldName ++ " != nil", by simp only [String.append_assoc]⟩
  rcases htest with ⟨rest, htest⟩ | ⟨rest, htest⟩
  · have := hfield (rest ++ " \x7b")
    rw [htest]
    simpa [String.toList_append] using this
  · have := hnot (rest ++ " \x7b")
    rw [htest]
    simpa [String.toList_append] using this

theorem Supply.counterpart (s : Supply) : Counterpart types s.code s.code := by
  have happend : Counterpart types
      (line (s.into.variable ++ " = append(" ++ s.into.variable ++ ", " ++ quote s.item ++ ")"))
      (line (s.into.variable ++ " = append(" ++ s.into.variable ++ ", " ++ quote s.item ++ ")")) := by
    rw [String.append_assoc, String.append_assoc, String.append_assoc, String.append_assoc]
    cases s.into with
    | columns => exact counterpart_front "columns" (by decide) _
    | sets => exact counterpart_front "sets" (by decide) _
    | conditions => exact counterpart_front "conditions" (by decide) _
  have hvalue : Counterpart types (line ("args = append(args, " ++ s.value.text ++ ")"))
      (line ("args = append(args, " ++ s.value.text ++ ")")) := by
    rw [String.append_assoc]
    exact counterpart_front _ (by decide) _
  exact counterpart_block (isReport_suppliedTest _) (.append happend hvalue)

theorem Step.counterpart {s : Step} (h : s.Fits types.length) :
    Counterpart types (s.code model .returned (types.map zeroValue))
      (s.code model .panicking (types.map zeroValue)) := by
  cases s with
  | rejectNil =>
    exact counterpart_block (by decide)
      (Convention.counterpart_fail (by decide) (by decide) (by decide))
  | startColumns columns => exact counterpart_front "columns := " (by decide) _
  | startValues values => exact counterpart_front "args := " (by decide) _
  | startGathering g room =>
    rw [code, code, String.append_assoc, String.append_assoc]
    cases g with
    | columns => exact counterpart_front "columns" (by decide) _
    | sets => exact counterpart_front "sets" (by decide) _
    | conditions => exact counterpart_front "conditions" (by decide) _
  | startNoValues room =>
    rw [code, code, String.append_assoc]
    exact counterpart_front _ (by decide) _
  | supply s => exact s.counterpart
  | supplyFromRecord supplies =>
    exact counterpart_block (by decide) (counterpart_flatMap fun s _ => s.counterpart)
  | rejectNoSets =>
    exact counterpart_block (by decide)
      (Convention.counterpart_fail (by decide) (by decide) (by decide))
  | addValues values =>
    rw [code, code, String.append_assoc]
    exact counterpart_front _ (by decide) _
  | query parts => exact counterpart_front "query := " (by decide) _
  | whereFixed clause => exact counterpart_front "where := " (by decide) _
  | whereGathered =>
    exact .append (counterpart_line (by decide))
      (counterpart_block (by decide) (counterpart_line (by decide)))
  | insert =>
    refine .append (.append (counterpart_line (by decide)) Convention.counterpart_check) ?_
    refine Convention.counterpart_forward (by decide) ?_ (by decide)
    exact h
  | execute =>
    refine Convention.counterpart_forward (by decide) ?_ (by decide)
    exact h
  | executeWith values =>
    refine Convention.counterpart_forward (by decide) ?_ (Convention.getLast?_call (by decide) _)
    exact h
  | fetch values =>
    rw [code, code, String.append_assoc, String.append_assoc, String.append_assoc]
    refine .append (.append (.append (counterpart_front _ (by decide) _)
      (counterpart_block (by decide) ?_)) Convention.counterpart_check) ?_
    · exact Convention.counterpart_succeed (by decide) h
    · exact Convention.counterpart_succeed (by decide) h
  | fetchPage order =>
    refine Convention.counterpart_forward (by decide) ?_ (Convention.getLast?_call (by decide) _)
    exact h

end

/-! ## Accessors -/

namespace Accessor

/-- What a call that fails yields is the zero of each type. -/
theorem zeros_eq (model : String) (a : Accessor) : a.zeros = (a.resultTypes model).map zeroValue := by
  have hpointer : zeroValue ("*" ++ model) = "nil" := by simp [zeroValue]
  have hlist : zeroValue ("[]*" ++ model) = "nil" := by simp [zeroValue]
  have hnumbers : zeroValue "int" = "0" ∧ zeroValue "int64" = "0" := by decide
  cases a <;> simp [zeros, resultTypes, hpointer, hlist, hnumbers]

/-- The steps of an accessor end with as many values as it has results. -/
theorem fits_steps (t : Table) (o : Options) (model : String) (a : Accessor) :
    ∀ s ∈ a.steps t o, s.Fits (a.resultTypes model).length := by
  have hsupplies (g : Gathered) (item : Column → String) (columns : List Column) (n : Nat) :
      ∀ s ∈ (supplies o g item columns).map Step.supply, s.Fits n := by
    intro s hs
    obtain ⟨supply, -, rfl⟩ := List.mem_map.1 hs
    trivial
  cases a with
  | create =>
    unfold steps
    simp only [List.partition_eq_filter_filter]
    refine List.forall_mem_append.2 ⟨List.forall_mem_append.2 ⟨?_, hsupplies _ _ _ _⟩, ?_⟩
    · simp [Step.Fits]
    · simp [Step.Fits, resultTypes]
  | update key =>
    refine List.forall_mem_append.2 ⟨List.forall_mem_append.2 ⟨?_, hsupplies _ _ _ _⟩, ?_⟩
    · simp [Step.Fits]
    · simp [Step.Fits, resultTypes]
  | get | listBy | list => simp [steps, Step.Fits, resultTypes]
  | delete | mark | restore => simp [steps, executeByKey, Step.Fits, resultTypes]

theorem counterpart_steps (t : Table) (o : Options) (model : String) (a : Accessor) :
    Counterpart (a.resultTypes model) ((a.steps t o).flatMap (Step.code model .returned a.zeros))
      ((a.steps t o).flatMap (Step.code model .panicking a.zeros)) := by
  rw [a.zeros_eq model]
  exact counterpart_flatMap fun s hs => s.counterpart model (a.fits_steps t o model s hs)

end Accessor

/-! ## Functions -/

/-- A function that returns its failures, and one that panics on them: the same name and parameters,
and one body but for the statements that report failures. `s` is what the second declares. -/
structure Go.Counterparts (s : Signature) (f g : FuncDecl) : Prop where
  returnedHead : f.head = { s with results := s.results ++ ["error"] }.text ++ " \x7b"
  panickingHead : g.head = s.text ++ " \x7b"
  body : Counterpart s.results f.body g.body
  settings : readLines setting? f.body = readLines setting? g.body
  tests : readLines test? f.body = readLines test? g.body
  calls : readLines calledExpr? f.body = readLines calledExpr? g.body
  errors : readLines returnedError? f.body = readLines raisedError? g.body

namespace Access

theorem counterparts_accessorFunction (t : Table) (o : Options) (a : Accessor) :
    Counterparts (a.signature t.modelName .panicking)
      (accessorFunction t { o with convention := .returned } a)
      (accessorFunction t { o with convention := .panicking } a) := by
  have hbody : Counterpart (a.resultTypes t.modelName)
      (accessorFunction t { o with convention := .returned } a).body
      (accessorFunction t { o with convention := .panicking } a).body := by
    -- The steps do not depend on the convention, only their code does.
    have hsteps (c : Convention) : a.steps t { o with convention := c } = a.steps t o := by
      cases a <;> rfl
    unfold accessorFunction Signature.declare
    simp only
    rw [hsteps, hsteps]
    exact .indent (a.counterpart_steps t o t.modelName)
  exact {
    returnedHead := rfl
    panickingHead := rfl
    body := hbody
    settings := hbody.readLines_eq fun _ _ h => h.readLines_eq isSilent_setting?
    tests := hbody.readLines_eq fun _ _ h => h.readLines_eq isSilent_test?
    calls := hbody.readLines_eq fun _ _ h => h.calls_eq
    errors := hbody.readLines_eq fun _ _ h => h.errors_eq }

/-- The functions of the accessors under the two conventions, in order. -/
theorem counterparts_accessorFunctions (t : Table) (o : Options) (accessors : List Accessor) :
    List.Forall₂ (fun f g => ∃ s, Counterparts s f g)
      (accessors.map (accessorFunction t { o with convention := .returned }))
      (accessors.map (accessorFunction t { o with convention := .panicking })) := by
  rw [List.forall₂_map_left_iff, List.forall₂_map_right_iff, List.forall₂_same]
  exact fun a _ => ⟨_, counterparts_accessorFunction t o a⟩

/-- What is read off a function that updates. -/
example :
    let id : Column := { name := "id", declaredType := "INT", flags := { notNull := true } }
    let t : Table := { name := "t", columns := [id, { name := "n", declaredType := "INT" }] }
    let f := accessorFunction t { convention := .panicking } (.update [id])
    readLines test? f.body
        = ["if s == nil \x7b".toList, "if s.N != nil \x7b".toList, "if len(sets) == 0 \x7b".toList]
      ∧ readLines calledExpr? f.body = ["rowsAffected(db.Exec(query, args...))".toList]
      ∧ readLines raisedError? f.body
        = ["ErrNilPointer".toList, "ErrNothingToUpdate".toList, "err".toList] := by
  decide +kernel

end Access

end GoScaffold
