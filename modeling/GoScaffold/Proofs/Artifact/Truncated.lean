import GoScaffold.Proofs.Artifact.Alignment
import GoScaffold.Proofs.Artifact.Imports
import GoScaffold.Proofs.Artifact.Redeclared
import GoScaffold.Proofs.Artifact.Rounding
import GoScaffold.Proofs.Go.Binding
import Mathlib.Data.List.Forall2

set_option autoImplicit false

/-! # Rounding truncates what is bound and nothing else

The file of data access functions with a unit of rounding, beside the one without. Line by line the two
are the same, but where values are bound the fields of columns that hold times are truncated
(`Truncates`); and if some table has such a column, an import and a function are added
(`Access.truncated_file`). So the functions send the same statements, with the same values but for the
times (`Accessor.calls_rounded`). -/

namespace GoScaffold

open Go Text

/-! ## Values -/

/-- The field of a column as it is bound with a unit of rounding. -/
def Column.truncated (unit : Rounding) (c : Column) : String :=
  if c.isTemporal then
    if c.isPointer then "truncateTime(" ++ c.ofRecord ++ ", " ++ unit.duration ++ ")"
    else c.ofRecord ++ ".Truncate(" ++ unit.duration ++ ")"
  else c.ofRecord

/-- The options with a unit of rounding, or without one. -/
def Options.withRounding (o : Options) (rounding : Option Rounding) : Options :=
  { o with rounding := rounding }

namespace Bound

/-- The value with a unit of rounding given to it, if it is of a column that holds times. -/
def rounded (unit : Rounding) (b : Bound) : Bound :=
  { b with rounding := if b.column.isTemporal then some unit else none }

theorem ofColumn_withRounding_none (o : Options) (c : Column) :
    ofColumn (o.withRounding none) c = ⟨c, none⟩ := by
  rw [ofColumn]
  exact congrArg (Bound.mk c) (ite_self none)

@[simp] theorem column_rounded (unit : Rounding) (b : Bound) : (b.rounded unit).column = b.column := by
  cases b
  rfl

theorem text_rounded (unit : Rounding) (b : Bound) :
    (b.rounded unit).text = b.column.truncated unit := by
  unfold rounded text Column.truncated
  cases b.column.isTemporal <;> rfl

end Bound

/-! ## Steps -/

/-- The step with a unit of rounding given to what it adds. -/
def Supply.rounded (unit : Rounding) (s : Supply) : Supply := { s with value := s.value.rounded unit }

/-- The step with a unit of rounding given to the values that it binds. -/
def Step.rounded (unit : Rounding) : Step → Step
  | .startValues values => .startValues (values.map (Bound.rounded unit))
  | .supply s => .supply (s.rounded unit)
  | .supplyFromRecord supplies => .supplyFromRecord (supplies.map (Supply.rounded unit))
  | .addValues values => .addValues (values.map (Bound.rounded unit))
  | .executeWith values => .executeWith (values.map (Bound.rounded unit))
  | .fetch values => .fetch (values.map (Bound.rounded unit))
  | s => s

namespace Accessor

variable (unit : Rounding) (o : Options)

theorem map_rounded_ofColumn (columns : List Column) :
    (columns.map (Bound.ofColumn (o.withRounding none))).map (Bound.rounded unit)
      = columns.map (Bound.ofColumn (o.withRounding (some unit))) := by
  rw [List.map_map]
  rfl

theorem map_rounded_supplies (g : Gathered) (item : Column → String) (columns : List Column) :
    (supplies (o.withRounding none) g item columns).map (Supply.rounded unit)
      = supplies (o.withRounding (some unit)) g item columns := by
  rw [supplies, List.map_map]
  rfl

theorem map_rounded_supply (g : Gathered) (item : Column → String) (columns : List Column) :
    ((supplies (o.withRounding none) g item columns).map Step.supply).map (Step.rounded unit)
      = (supplies (o.withRounding (some unit)) g item columns).map Step.supply := by
  rw [← map_rounded_supplies, List.map_map, List.map_map]
  rfl

/-- The steps with rounding are those without, with the unit given to every value that they bind. -/
theorem steps_rounded (t : Table) (a : Accessor) :
    a.steps t (o.withRounding (some unit))
      = (a.steps t (o.withRounding none)).map (Step.rounded unit) := by
  cases a <;>
    simp only [steps, executeByKey, List.map_append, List.map_cons, List.map_nil, Step.rounded,
      map_rounded_ofColumn, map_rounded_supplies, map_rounded_supply]

end Accessor

/-! ## What is sent -/

/-- The value of a placeholder, with a unit of rounding given to it if it is a field. -/
def Argument.rounded (unit : Rounding) : Argument → Argument
  | .field value => .field (value.rounded unit)
  | .page number => .page number

/-- The statement with the same text, and a unit of rounding given to its values. -/
def Call.rounded (unit : Rounding) (call : Call) : Call :=
  { call with arguments := call.arguments.map (Argument.rounded unit) }

theorem Statement.call_rounded (unit : Rounding) (o : Options) (t : Table) (s : Statement) :
    s.call t (o.withRounding (some unit)) = (s.call t (o.withRounding none)).rounded unit := by
  have hargument (slot : Slot) : slot.argument (o.withRounding (some unit))
      = (slot.argument (o.withRounding none)).rounded unit := by
    cases slot <;> rfl
  rw [call, call, Call.rounded, Call.mk.injEq, List.map_map]
  exact ⟨rfl, List.map_congr_left fun slot _ => hargument slot⟩

/-- On every record a function sends the statements that it sends without rounding, with their texts,
and with the unit given to their values; or it refuses for the same reason. -/
theorem Accessor.calls_rounded (unit : Rounding) (o : Options) (t : Table) (a : Accessor)
    (record : Option Supplied) :
    a.calls t (o.withRounding (some unit)) record
      = (a.calls t (o.withRounding none) record).map (List.map (Call.rounded unit)) := by
  have hcall : Statement.call t (o.withRounding (some unit))
      = Call.rounded unit ∘ Statement.call t (o.withRounding none) :=
    funext fun s => s.call_rounded unit o t
  rw [calls_eq_plan, calls_eq_plan, hcall]
  cases a.plan t record with
  | error refusal => rfl
  | ok statements =>
    show Except.ok _ = Except.ok _
    rw [List.map_map]

/-! ## Lines -/

/-- A line of the code for a table without rounding, and the line with it. -/
inductive Truncates (unit : Rounding) (t : Table) : Line → Line → Prop
  /-- Where nothing is bound the two are the same. -/
  | same (l : Line) (h : binds l.text.toList = false) : Truncates unit t l l
  /-- Where fields are bound those of columns that hold times are truncated. -/
  | bound (depth : Nat) (b : Binding) (columns : List Column) (h : ∀ c ∈ columns, c ∈ t.columns) :
      Truncates unit t ⟨depth, b.text (columns.map (·.ofRecord))⟩
        ⟨depth, b.text (columns.map (·.truncated unit))⟩

/-- Code for a table without rounding and with it, line by line. -/
def TruncatesCode (unit : Rounding) (t : Table) : Code → Code → Prop :=
  List.Forall₂ (Truncates unit t)

/-- Whether the values are fields of columns of the table, without a rounding. -/
def Table.AreFields (t : Table) (values : List Bound) : Prop :=
  ∀ b ∈ values, b.column ∈ t.columns ∧ b.rounding = none

namespace TruncatesCode

variable {unit : Rounding} {t : Table} {c c' d d' : Code}

theorem same (h : BindsNothing c) : TruncatesCode unit t c c :=
  List.forall₂_same.2 fun l hl => .same l (h l hl)

theorem append (h : TruncatesCode unit t c d) (h' : TruncatesCode unit t c' d') :
    TruncatesCode unit t (c ++ c') (d ++ d') :=
  List.rel_append h h'

theorem indent (h : TruncatesCode unit t c d) :
    TruncatesCode unit t (Go.indent c) (Go.indent d) := by
  refine List.rel_map (fun l l' hline => ?_) h
  cases hline with
  | same _ h => exact .same _ h
  | bound depth b columns h => exact .bound _ b columns h

theorem block {head : String} (hhead : BindsNothing (line (head ++ " \x7b")))
    (h : TruncatesCode unit t c d) : TruncatesCode unit t (Go.block head c) (Go.block head d) := by
  have hend : BindsNothing (line "\x7d") := by decide
  exact ((same hhead).append h.indent).append (same hend)

theorem flatMap {α : Type} {f g : α → Code} {xs : List α}
    (h : ∀ x ∈ xs, TruncatesCode unit t (f x) (g x)) :
    TruncatesCode unit t (xs.flatMap f) (xs.flatMap g) := by
  induction xs with
  | nil => exact .nil
  | cons x xs ih =>
    exact append (h x List.mem_cons_self) (ih fun y hy => h y (List.mem_cons_of_mem _ hy))

/-- A line that binds values, without rounding and with it. -/
theorem binding {values : List Bound} (h : t.AreFields values) (b : Binding) :
    TruncatesCode unit t (line (b.front ++ Bound.arguments values ++ b.back))
      (line (b.front ++ Bound.arguments (values.map (Bound.rounded unit)) ++ b.back)) := by
  have hplain : values.map Bound.text = (values.map (·.column)).map (·.ofRecord) := by
    rw [List.map_map]
    refine List.map_congr_left fun value hvalue => ?_
    rw [Bound.text, (h value hvalue).2]
    rfl
  have htruncated : (values.map (Bound.rounded unit)).map Bound.text
      = (values.map (·.column)).map (·.truncated unit) := by
    simp only [List.map_map, Function.comp_def, Bound.text_rounded]
  have hcolumns : ∀ c ∈ values.map (·.column), c ∈ t.columns := by
    intro c hc
    obtain ⟨value, hvalue, rfl⟩ := List.mem_map.1 hc
    exact (h value hvalue).1
  rw [Bound.arguments, Bound.arguments, htruncated, hplain]
  exact .cons (.bound 0 b _ hcolumns) .nil

end TruncatesCode

/-! ## Code of steps -/

namespace Convention

/-- The results besides the error of the functions that fail. -/
def failures : List (List String) := [["0"], ["nil"], ["0", "nil"]]

variable (c : Convention)

theorem bindsNothing_check : ∀ zeros ∈ failures, BindsNothing (c.check zeros) := by
  cases c <;> decide

theorem bindsNothing_fail : ∀ zeros ∈ failures, ∀ error ∈ ["ErrNilPointer", "ErrNothingToUpdate"],
    BindsNothing (c.fail zeros error) := by
  cases c <;> decide

/-- A call that is told by its front binds nothing. -/
theorem bindsNothing_forward {name : String} {names : List String} (front : String)
    (hreturn : bindsNone ("return " ++ front) = true)
    (hassign : bindsNone (join ", " (name :: names) ++ ", err := " ++ front) = true)
    (hnames : BindsNothing (returning (name :: names))) (rest : String) :
    BindsNothing (c.forward (name :: names) (front ++ rest)) := by
  cases c with
  | returned =>
    rw [forward, ← String.append_assoc]
    exact .front _ hreturn rest
  | panicking =>
    simp only [forward]
    rw [← String.append_assoc]
    exact .append (.append (.front _ hassign rest) (by decide)) hnames

end Convention

section

variable {unit : Rounding} {t : Table}

theorem Gathered.bindsNothing_variable (g : Gathered) (rest : String) :
    BindsNothing (line (g.variable ++ rest)) := by
  cases g with
  | columns => exact .front "columns" (by decide) rest
  | sets => exact .front "sets" (by decide) rest
  | conditions => exact .front "conditions" (by decide) rest

theorem Supply.truncatesCode {s : Supply} (h : t.AreFields [s.value]) :
    TruncatesCode unit t s.code (s.rounded unit).code := by
  obtain ⟨into, item, value⟩ := s
  have happend : BindsNothing
      (line (into.variable ++ " = append(" ++ into.variable ++ ", " ++ quote item ++ ")")) := by
    rw [String.append_assoc, String.append_assoc, String.append_assoc, String.append_assoc]
    exact into.bindsNothing_variable _
  have hadd : TruncatesCode unit t (line ("args = append(args, " ++ value.text ++ ")"))
      (line ("args = append(args, " ++ (value.rounded unit).text ++ ")")) := by
    have hone (b : Bound) : b.text = Bound.arguments [b] := rfl
    rw [hone, hone]
    exact .binding h .added
  unfold code rounded
  simp only [Bound.column_rounded]
  exact .block (.head "if " (by decide) _) (.append (.same happend) hadd)

/-- A function ends with a statement that binds values. -/
theorem TruncatesCode.execute (c : Convention) {values : List Bound} (h : t.AreFields values) :
    TruncatesCode unit t
      (c.forward ["rows"] ("rowsAffected(db.Exec(query, " ++ Bound.arguments values ++ "))"))
      (c.forward ["rows"] ("rowsAffected(db.Exec(query, "
        ++ Bound.arguments (values.map (Bound.rounded unit)) ++ "))")) := by
  cases c with
  | returned =>
    have hline (arguments : String) :
        line ("return " ++ ("rowsAffected(db.Exec(query, " ++ arguments ++ "))"))
          = line (Binding.returned.front ++ arguments ++ Binding.returned.back) := by
      rw [← String.append_assoc, ← String.append_assoc]
      rfl
    rw [Convention.forward, Convention.forward, hline, hline]
    exact .binding h .returned
  | panicking =>
    have hline (arguments : String) :
        line (join ", " ["rows"] ++ ", err := " ++ ("rowsAffected(db.Exec(query, " ++ arguments ++ "))"))
          = line (Binding.taken.front ++ arguments ++ Binding.taken.back) := by
      rw [← String.append_assoc, ← String.append_assoc]
      rfl
    have hend : BindsNothing (line "assertErrorNil(err)" ++ Convention.returning ["rows"]) := by decide
    simp only [Convention.forward]
    rw [hline, hline, List.append_assoc, List.append_assoc]
    exact .append (.binding h .taken) (.same hend)

/-- A step without rounding, and with it. -/
theorem Step.truncatesCode (model : String) (c : Convention) {zeros : List String}
    (hzeros : zeros ∈ Convention.failures) {s : Step} (h : t.AreFields s.bounds) :
    TruncatesCode unit t (s.code model c zeros) ((s.rounded unit).code model c zeros) := by
  cases s with
  | rejectNil => exact .same (.block (by decide) (c.bindsNothing_fail zeros hzeros _ (by decide)))
  | startColumns columns => exact .same (.front "columns := " (by decide) _)
  | startValues values =>
    have hline (values : List Bound) : line ("args := " ++ composite "[]any" (Bound.arguments values))
        = line (Binding.started.front ++ Bound.arguments values ++ Binding.started.back) := by
      rw [composite, ← String.append_assoc, ← String.append_assoc]
      rfl
    rw [code, rounded, code, hline, hline]
    exact .binding h .started
  | startGathering g room =>
    refine .same ?_
    rw [code, String.append_assoc, String.append_assoc]
    exact g.bindsNothing_variable _
  | startNoValues room =>
    refine .same ?_
    rw [code, String.append_assoc]
    exact .front "args := make([]any, 0, " (by decide) _
  | supply s => exact s.truncatesCode h
  | supplyFromRecord supplies =>
    refine .block (by decide) ?_
    rw [List.flatMap_map]
    exact .flatMap fun s hs => s.truncatesCode
      (List.forall_mem_singleton.2 (h _ (List.mem_map_of_mem hs)))
  | rejectNoSets =>
    exact .same (.block (by decide) (c.bindsNothing_fail zeros hzeros _ (by decide)))
  | addValues values => exact .binding h .added
  | query parts => exact .same (.front "query := " (by decide) _)
  | whereFixed clause => exact .same (.front "where := " (by decide) _)
  | whereGathered =>
    have hcode : BindsNothing (line "where := \"\""
        ++ block "if len(conditions) > 0"
          (line "where = \" where \" + strings.Join(conditions, \" and \")")) := by decide
    exact .same hcode
  | insert =>
    have hexec : BindsNothing (line "result, err := db.Exec(query, args...)") := by decide
    have hid : BindsNothing (c.forward ["id"] "result.LastInsertId()") := by cases c <;> decide
    exact .same (.append (.append hexec (c.bindsNothing_check zeros hzeros)) hid)
  | execute =>
    have hrows : BindsNothing (c.forward ["rows"] "rowsAffected(db.Exec(query, args...))") := by
      cases c <;> decide
    exact .same hrows
  | executeWith values => exact .execute c h
  | fetch values =>
    have hnone : BindsNothing (block "if errors.Is(err, sql.ErrNoRows)" (c.succeed ["nil"])) := by
      cases c <;> decide
    have hsome : BindsNothing (c.succeed ["m"]) := by cases c <;> decide
    exact .append (.append (.append (.binding h (.fetched model)) (.same hnone))
      (.same (c.bindsNothing_check zeros hzeros))) (.same hsome)
  | fetchPage order =>
    refine .same ?_
    rw [code, String.append_assoc, String.append_assoc, String.append_assoc]
    exact c.bindsNothing_forward "queryMany" (by decide) (by decide) (by decide) _

namespace Accessor

theorem zeros_mem_failures (a : Accessor) : a.zeros ∈ Convention.failures := by
  cases a with
  | get => exact .tail _ (.head _)
  | listBy | list => exact .tail _ (.tail _ (.head _))
  | create | update | delete | mark | restore => exact .head _

/-- A function binds fields of columns of its table alone. -/
theorem areFields_bounds {o : Options} {a : Accessor} (ha : a ∈ ofTable t o) {s : Step}
    (hs : s ∈ a.steps t (o.withRounding none)) : t.AreFields s.bounds := by
  have hfilter {columns : List Column} {p : Column → Bool} (h : ∀ c ∈ columns, c ∈ t.columns) :
      ∀ c ∈ columns.filter p, c ∈ t.columns := fun c hc => h c (List.mem_of_mem_filter hc)
  have hinsertable : ∀ c ∈ insertable t, c ∈ t.columns := hfilter fun c hc => hc
  have hkey {key : List Column} (hkey : a.key? = some key) : ∀ c ∈ key, c ∈ t.columns :=
    (isKey_of_mem_ofTable ha hkey).subset
  have hcolumns : ∀ c ∈ a.boundColumns t, c ∈ t.columns := by
    cases a with
    | create => exact List.forall_mem_append.2 ⟨hfilter hinsertable, hfilter hinsertable⟩
    | update key => exact List.forall_mem_append.2 ⟨hfilter (hfilter fun c hc => hc), hkey rfl⟩
    | list order => exact fun c hc => hc
    | get key | listBy key order | delete key | mark key c literal | restore key c literal =>
      exact hkey rfl
  intro b hb
  obtain ⟨c, hc, rfl⟩ := exists_of_mem_bounds hs hb
  rw [Bound.ofColumn_withRounding_none]
  exact ⟨hcolumns c hc, rfl⟩

theorem truncatesCode (unit : Rounding) {o : Options} {a : Accessor} (ha : a ∈ ofTable t o) :
    TruncatesCode unit t (a.code t (o.withRounding none)) (a.code t (o.withRounding (some unit))) := by
  have hsummary : BindsNothing (line ("// " ++ a.summary t.modelName)) := .front "// " (by decide) _
  have hgap : BindsNothing gap := by decide
  have hbody : TruncatesCode unit t
      ((a.steps t (o.withRounding none)).flatMap (Step.code t.modelName o.convention a.zeros))
      ((a.steps t (o.withRounding (some unit))).flatMap (Step.code t.modelName o.convention a.zeros)) := by
    rw [steps_rounded, List.flatMap_map]
    exact .flatMap fun s hs =>
      s.truncatesCode t.modelName o.convention a.zeros_mem_failures (areFields_bounds ha hs)
  have hhead : BindsNothing (line (a.head t.modelName o.convention ++ " \x7b")) := by
    simp only [head, String.append_assoc]
    exact .front "func " (by decide) _
  exact .append (.same hsummary) (.append (.block hhead hbody) (.same hgap))

end Accessor

end

/-! ## Files -/

namespace Access

theorem bindsNothing_scanCode (t : Table) : BindsNothing (scanCode t) := by
  unfold scanCode
  simp only [String.append_assoc]
  refine .declaration (.head "func scan" (by decide) _) (.append (.append ?_ ?_) (by decide))
  · exact .front "m := &" (by decide) _
  · exact .block (.head "if err := row.Scan(" (by decide) _) (by decide)

theorem bindsNothing_pageCode (t : Table) : BindsNothing (pageCode t) := by
  have hloop : BindsNothing (block "for rows.Next()"
      (line ("m, err := scan" ++ t.modelName ++ "(rows)")
        ++ block "if err != nil" (line "return 0, nil, err") ++ line "list = append(list, m)")) :=
    .block (by decide) (.append (.append (List.forall_mem_singleton.2 (binds_scan (isName_modelName t)))
      (by decide)) (by decide))
  unfold pageCode
  simp only [String.append_assoc] at hloop ⊢
  refine .declaration (.head "func queryMany" (by decide) _) (.append (.append (.append (.append (.append
    (.append (.append (.append (.append ?_ ?_) ?_) ?_) ?_) ?_) ?_) ?_) hloop) ?_)
  · decide
  · decide
  · decide
  · exact .block (.head "if err := db.QueryRow(" (by decide) _) (by decide)
  · exact .front "rows, err := db.Query(" (by decide) _
  · decide
  · decide
  · exact .front "list := make([]*" (by decide) _
  · decide

/-- The code for a table besides its functions binds nothing. -/
theorem bindsNothing_shared (t : Table) :
    BindsNothing (heading t.modelName ++ columnsCode t ++ scanCode t ++ pageCode t) := by
  have hgap : BindsNothing gap := by decide
  have hheading : BindsNothing (heading t.modelName) := by
    rw [heading, String.append_assoc]
    exact .append (.front _ (by decide) _) hgap
  have hcolumns : BindsNothing (columnsCode t) := by
    rw [columnsCode, String.append_assoc, String.append_assoc]
    exact .append (.front _ (by decide) _) hgap
  exact .append (.append (.append hheading hcolumns) (bindsNothing_scanCode t)) (bindsNothing_pageCode t)

theorem truncatesCode_tableCode (unit : Rounding) (o : Options) (t : Table) :
    TruncatesCode unit t (tableCode t (o.withRounding none)) (tableCode t (o.withRounding (some unit))) :=
  .append (.same (bindsNothing_shared t)) (.flatMap fun a ha => a.truncatesCode unit ha)

/-- What stands in a file before the import of times. -/
def opening (o : Options) (today : String) : Code :=
  (match o.bannerText? today with
    | some banner => lines ["/**", " * " ++ banner, " */"]
    | none => [])
    ++ line ("package " ++ o.package) ++ gap ++ line "import ("
    ++ ["database/sql", "errors", "strings"].map importLine

/-- The line of the import of times, if times are truncated. -/
def timeImport (rounds : Bool) : Code := if rounds then [importLine "time"] else []

/-- The function that truncates times behind pointers, if times are truncated. -/
def timeHelper (rounds : Bool) : Code := if rounds then truncateCode else []

theorem lines_file (tables : List Table) (o : Options) (today : String) :
    (file tables o today).head ++ (file tables o today).body
      = opening o today ++ timeImport (rounds tables o) ++ line ")" ++ gap
        ++ preamble o.convention false ++ timeHelper (rounds tables o)
        ++ tables.flatMap (tableCode · o) := by
  have himports : ∀ rounds : Bool,
      importCode (["database/sql", "errors", "strings"] ++ if rounds then ["time"] else [])
        = line "import (" ++ ["database/sql", "errors", "strings"].map importLine ++ timeImport rounds
          ++ line ")" ++ gap := by
    decide
  have hpreamble (c : Convention) (rounds : Bool) :
      preamble c rounds = preamble c false ++ timeHelper rounds := by
    simp [preamble, timeHelper]
  rw [body_file, hpreamble, File.head, opening]
  show _ ++ importCode (_ ++ if rounds tables o = true then _ else _) ++ _ = _
  rw [himports]
  simp only [List.append_assoc]
  rfl

/-- The import of times is there just if times are truncated. -/
theorem timeImport_mem_head_iff (tables : List Table) (o : Options) (today : String) :
    importLine "time" ∈ (file tables o today).head ↔ rounds tables o = true := by
  rw [importLine_mem_head]
  show "time" ∈ ["database/sql", "errors", "strings"] ++ (if rounds tables o then ["time"] else []) ↔ _
  cases rounds tables o <;> decide

/-- The function that truncates times behind pointers is declared just if times are truncated. -/
theorem truncateTime_mem_names_iff (tables : List Table) (o : Options) (today : String) :
    "truncateTime" ∈ (functions (file tables o today).body).map (·.name) ↔ rounds tables o = true := by
  have hshared : "truncateTime" ∈ (sharedSignatures o.convention (rounds tables o)).map (·.name)
      ↔ rounds tables o = true := by
    cases o.convention <;> cases rounds tables o <;> decide
  -- The names of the other functions begin with other characters.
  have htables : "truncateTime" ∉ (tables.flatMap (tableSignatures · o)).map (·.name) := by
    intro hmem
    obtain ⟨s, hs, hname⟩ := List.mem_map.1 hmem
    obtain ⟨t, -, ht⟩ := List.mem_flatMap.1 hs
    have hfirst : s.name.toList.head? = some 't' := by rw [hname]; rfl
    rw [tableSignatures, List.mem_cons, List.mem_cons] at ht
    rcases ht with rfl | rfl | ht
    · simp [scanSignature] at hfirst
    · simp [pageSignature] at hfirst
    · obtain ⟨a, -, rfl⟩ := List.mem_map.1 ht
      have hcapital := head?_name_mem t.modelName a
      rw [show (a.name t.modelName).toList.head? = some 't' from hfirst] at hcapital
      exact absurd hcapital (by decide)
  rw [names_file, signatures, List.map_append, List.mem_append, hshared, or_iff_left htables]

/-- The line, if it tests something or tells what a statement says. -/
def told? (cs : List Char) : Option (List Char) :=
  if beginsWith ["if ", "query ", "where ", "columns ", "sets ", "conditions ", "const "] cs then some cs
  else none

/-- Lines that bind values tell nothing else. -/
theorem told?_truncates {unit : Rounding} {t : Table} {l l' : Line} (h : Truncates unit t l l') :
    told? l.text.toList = told? l'.text.toList := by
  have hbinding (b : Binding) (values : List String) : told? (b.text values).toList = none := by
    have hnone : beginsWith ["if ", "query ", "where ", "columns ", "sets ", "conditions ", "const "]
        (b.text values).toList = false := by
      rw [Binding.text, String.append_assoc, String.toList_append]
      cases b with
      | fetched model =>
        rw [Binding.front, String.append_assoc, String.toList_append, List.append_assoc]
        exact beginsWith_append (by decide) _
      | started | added | returned | taken => exact beginsWith_append (by decide) _
    rw [told?, hnone]
    rfl
  cases h with
  | same => rfl
  | bound depth b columns => rw [hbinding, hbinding]

theorem readLines_told? {unit : Rounding} {t : Table} {c d : Code} (h : TruncatesCode unit t c d) :
    readLines told? c = readLines told? d := by
  induction h with
  | nil => rfl
  | cons hline _ ih =>
    rw [readLines, readLines, List.filterMap_cons, List.filterMap_cons, told?_truncates hline]
    unfold readLines at ih
    rw [ih]

/-- What a unit of rounding makes of the file of data access functions. -/
structure AddsRounding (tables : List Table) (o : Options) (unit : Rounding) (today : String) :
    Prop where
  /-- The file without rounding, as its lines. -/
  plain : Target.crud.emit tables (o.withRounding none) today
    = endOnce (render (opening o today ++ line ")" ++ gap ++ preamble o.convention false
        ++ tables.flatMap (tableCode · (o.withRounding none))))
  /-- With rounding an import and a function are added, if some table has times. -/
  rounded : Target.crud.emit tables (o.withRounding (some unit)) today
    = endOnce (render (opening o today ++ timeImport (tables.any (·.hasTimes)) ++ line ")" ++ gap
        ++ preamble o.convention false ++ timeHelper (tables.any (·.hasTimes))
        ++ tables.flatMap (tableCode · (o.withRounding (some unit)))))
  /-- The import is in no file but those with rounding of some table that has times. -/
  imports : ∀ rounding, importLine "time" ∈ (file tables (o.withRounding rounding) today).head
    ↔ rounding.isSome ∧ ∃ t ∈ tables, ∃ c ∈ t.columns, c.isTemporal
  /-- Nor is the function in any other. -/
  helper : ∀ rounding,
    "truncateTime" ∈ (functions (file tables (o.withRounding rounding) today).body).map (·.name)
      ↔ rounding.isSome ∧ ∃ t ∈ tables, ∃ c ∈ t.columns, c.isTemporal
  /-- The tables are the same line by line, but for the times where fields are bound. -/
  lines : ∀ t ∈ tables,
    TruncatesCode unit t (tableCode t (o.withRounding none)) (tableCode t (o.withRounding (some unit)))
  /-- What is tested and what the statements say is the same. -/
  told : ∀ t ∈ tables, readLines told? (tableCode t (o.withRounding none))
    = readLines told? (tableCode t (o.withRounding (some unit)))
  /-- No value that a function binds is left out. -/
  steps : ∀ t ∈ tables, ∀ a ∈ Accessor.ofTable t o, a.steps t (o.withRounding (some unit))
    = (a.steps t (o.withRounding none)).map (Step.rounded unit)
  /-- On every record the same statements are sent, with the times among their values truncated. -/
  calls : ∀ t ∈ tables, ∀ a ∈ Accessor.ofTable t o, ∀ record,
    a.calls t (o.withRounding (some unit)) record
      = (a.calls t (o.withRounding none) record).map (List.map (Call.rounded unit))
  /-- Where no table has times the files are the same. -/
  timeless : (∀ t ∈ tables, ∀ c ∈ t.columns, c.isTemporal = false) →
    Target.crud.emit tables (o.withRounding (some unit)) today
      = Target.crud.emit tables (o.withRounding none) today

/-- For all tables and options, on every day: a unit of rounding adds the import of times and the function
that truncates them behind pointers, if and only if some column of some table holds times; and on every
line of every function on which fields are bound, be it as values or as keys, it truncates the fields of
such columns. Nothing else changes. -/
theorem addsRounding (tables : List Table) (o : Options) (unit : Rounding) (today : String) :
    AddsRounding tables o unit today := by
  have hrounds (rounding : Option Rounding) : rounds tables (o.withRounding rounding) = true
      ↔ rounding.isSome ∧ ∃ t ∈ tables, ∃ c ∈ t.columns, c.isTemporal := by
    simp [rounds, Options.withRounding, Table.hasTimes]
  have hemit (o : Options) : Target.crud.emit tables o today
      = endOnce (render ((file tables o today).head ++ (file tables o today).body)) := rfl
  refine {
    plain := ?_
    rounded := by rw [hemit, lines_file]; rfl
    imports := fun rounding => (timeImport_mem_head_iff ..).trans (hrounds rounding)
    helper := fun rounding => (truncateTime_mem_names_iff ..).trans (hrounds rounding)
    lines := fun t _ => truncatesCode_tableCode unit o t
    told := fun t _ => readLines_told? (truncatesCode_tableCode unit o t)
    steps := fun t _ a _ => a.steps_rounded unit o t
    calls := fun t _ a _ record => a.calls_rounded unit o t record
    timeless := fun htimes => ?_ }
  · have hnone : rounds tables (o.withRounding none) = false := rfl
    rw [hemit, lines_file, hnone, timeImport, timeHelper]
    simp only [Bool.false_eq_true, if_false, List.append_nil]
    rfl
  · have hnone : tables.any (·.hasTimes) = false := by
      simpa [List.any_eq_false, Table.hasTimes] using htimes
    have hfile : file tables (o.withRounding (some unit)) today
        = file tables (o.withRounding none) today := by
      simp only [file, rounds, tableOptions, hnone]
      rfl
    rw [hemit, hemit, hfile]

end Access

end GoScaffold
