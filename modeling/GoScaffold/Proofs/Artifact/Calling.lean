import GoScaffold.Proofs.Artifact.Declared
import GoScaffold.Proofs.Go.Calls

set_option autoImplicit false

/-! # What the artifacts call

A handler makes one call of the service, for its own operation, and a service method of the plain
style makes one call of a data access function. The results of each are named, passed on or dropped
as the convention asks for. -/

namespace GoScaffold

open Go Text

/-! ## Handlers -/

namespace Router

/-- What a handler does with the results of the service. -/
def taken (c : Convention) (op : Operation) : Taken :=
  match c, resultNames op with
  | .returned, names => .assigned (names.length + 1)
  | .panicking, [] => .dropped
  | .panicking, names => .assigned names.length

theorem calls_bindCode (dataType : String) : calls "r.Service." (bindCode dataType) = [] := by
  have hrest : calls "r.Service."
      (block "if err := c.ShouldBindJSON(&req); err != nil || req.Data == nil"
        (lines [
          "log.Printf(\"__LINE__ bad request: %v\", err)",
          "fail(c, http.StatusBadRequest, \"bad request\")",
          "return"])) = [] := by decide
  have hfirst : calls "r.Service." (line ("var req RequestBean[" ++ (dataType ++ "]"))) = [] :=
    calls_of_rulesOut (by decide) _
  rw [bindCode, calls_append, hrest, List.append_nil, String.append_assoc, hfirst]

theorem text_serviceCall (op : Operation) (model arguments : String) :
    (serviceCall op model arguments).toList
      = "r.Service".toList ++ ['.'] ++ ((op.methodName model).toList ++ '(' :: (arguments ++ ")").toList) := by
  simp [serviceCall]

/-- The call whose results are given names: of the names it is told how many they are. -/
theorem calls_assigned (op : Operation) {model : String} (hmodel : IsName model) (arguments : String)
    {values : List String} (htargets : ∀ ch ∈ (join ", " values ++ " ").toList, isTargetChar ch = true)
    (hfirst : (join ", " values ++ " ").toList.head? ≠ some 'r') :
    calls "r.Service." (line (join ", " values ++ " := " ++ serviceCall op model arguments))
      = [⟨op.methodName model, .assigned (countNames (join ", " values ++ " ").toList)⟩] := by
  have hqualifier : "r.Service." = "r.Service" ++ "." := by decide
  have htext : (join ", " values ++ " := " ++ serviceCall op model arguments).toList
      = (join ", " values ++ " ").toList ++ (":= ".toList ++ ("r.Service".toList ++ ['.']
        ++ ((op.methodName model).toList ++ '(' :: (arguments ++ ")").toList))) := by
    rw [String.toList_append, text_serviceCall]
    simp
  rw [hqualifier]
  exact calls_assign htargets hfirst (isName_methodName op hmodel) htext

theorem calls_dropped (op : Operation) {model : String} (hmodel : IsName model) (arguments : String) :
    calls "r.Service." (line (serviceCall op model arguments)) = [⟨op.methodName model, .dropped⟩] := by
  have hqualifier : "r.Service." = "r.Service" ++ "." := by decide
  rw [hqualifier]
  exact calls_bare (isName_methodName op hmodel) (text_serviceCall op model arguments)

/-- The call of the service is read off the code that makes it. -/
theorem calls_callCode (c : Convention) (op : Operation) {model : String} (hmodel : IsName model)
    (arguments : String) :
    calls "r.Service."
        (callCode c model (resultNames op) (serviceCall op model arguments) (doing op))
      = [⟨op.methodName model, taken c op⟩] := by
  cases c with
  | returned =>
    have hlog : calls "r.Service."
        (line ("log.Printf(\"__LINE__ " ++ doing op ++ " " ++ model ++ ": %v\", err)")) = [] := by
      rw [String.append_assoc, String.append_assoc, String.append_assoc]
      exact calls_of_rulesOut (by decide) _
    have hblock : calls "r.Service." (block "if err != nil" (lines [
        "log.Printf(\"__LINE__ " ++ doing op ++ " " ++ model ++ ": %v\", err)",
        "fail(c, http.StatusInternalServerError, err.Error())",
        "return"])) = [] := by
      rw [block, calls_enclosed, calls_lines_cons, hlog]
      decide
    have hcount : countNames (join ", " (resultNames op ++ ["err"]) ++ " ").toList
        = (resultNames op).length + 1 := by
      cases op <;> decide
    unfold callCode
    simp only
    rw [calls_append, hblock, List.append_nil, calls_assigned op hmodel, hcount]
    · rfl
    · cases op <;> decide
    · cases op <;> decide
  | panicking =>
    cases op with
    | create => exact calls_dropped .create hmodel arguments
    | update => exact calls_dropped .update hmodel arguments
    | delete => exact calls_dropped .delete hmodel arguments
    | list => exact calls_assigned .list hmodel arguments (by decide) (by decide)
    | get => exact calls_assigned .get hmodel arguments (by decide) (by decide)

/-- What a handler of a page does before it calls the service calls nothing. -/
theorem calls_listCode (model record : String) :
    calls "r.Service."
      (block "type pageable struct"
          (lines ["*" ++ record, "Page int `json:\"page\"`", "Size int `json:\"size\"`"])
        ++ bindCode "*pageable"
        ++ line ("filter := req.Data." ++ model)
        ++ block "if filter == nil" (line ("filter = &" ++ composite record ""))) = [] := by
  have hrecord : calls "r.Service." (line ("*" ++ record)) = [] := calls_of_rulesOut (by decide) _
  have hfilter : calls "r.Service." (line ("filter := req.Data." ++ model)) = [] :=
    calls_of_rulesOut (by decide) _
  have hempty : calls "r.Service." (line ("filter = &" ++ composite record "")) = [] :=
    calls_of_rulesOut (by decide) _
  have htype : calls "r.Service." (block "type pageable struct"
      (lines ["*" ++ record, "Page int `json:\"page\"`", "Size int `json:\"size\"`"])) = [] := by
    rw [block, calls_enclosed, calls_lines_cons, hrecord]
    decide
  have hblock : calls "r.Service."
      (block "if filter == nil" (line ("filter = &" ++ composite record ""))) = [] := by
    rw [block, calls_enclosed, hempty]
    decide
  rw [calls_append, calls_append, calls_append, htype, calls_bindCode, hfilter, hblock]
  rfl

/-- A handler calls the service once, for its operation. -/
theorem calls_handlerBody (op : Operation) {model : String} (hmodel : IsName model)
    (package : String) (c : Convention) :
    calls "r.Service." (handlerBody op model package c) = [⟨op.methodName model, taken c op⟩] := by
  have hcall := calls_callCode c op hmodel
  have hanswer (rest : String) : calls "r.Service." (line ("success(c, " ++ rest)) = [] :=
    calls_of_rulesOut (by decide) rest
  have hplain (dataType answer : String) (h : calls "r.Service." (line answer) = []) :
      calls "r.Service." (bindCode dataType
        ++ callCode c model (resultNames op) (serviceCall op model "req.Data") (doing op)
        ++ line answer) = [⟨op.methodName model, taken c op⟩] := by
    rw [calls_append, calls_append, calls_bindCode, hcall, h]
    rfl
  cases op with
  | create => exact hplain _ "success(c, req.Data)" (by decide)
  | update => exact hplain _ "success(c, req.Data)" (by decide)
  | get => exact hplain _ "success(c, m)" (by decide)
  | delete => exact hplain _ "success(c, nil)" (by decide)
  | list =>
    unfold handlerBody
    simp only
    rw [calls_append, calls_append, calls_listCode, hcall, List.nil_append, String.append_assoc,
      hanswer, List.append_nil]

theorem calls_guardedBody (op : Operation) {model : String} (hmodel : IsName model)
    (package : String) (c : Convention) :
    calls "r.Service." (guardedBody op model package c) = [⟨op.methodName model, taken c op⟩] := by
  unfold guardedBody
  rw [calls_append, calls_handlerBody op hmodel]
  cases c with
  | returned => rfl
  | panicking =>
    have hdefer : calls "r.Service." (line "defer recoverWith(c)") = [] := by decide
    simp only [hdefer, List.nil_append]

end Router

/-! ## Service -/

namespace Service

/-- What a method of the plain style does with the results of its accessor. -/
def taken (t : Table) (c : Convention) : Operation → Taken
  | .create =>
    match c, (t.columns.find? (·.flags.autoIncrement)).bind assignId? with
    | .returned, _ => .assigned 2
    | .panicking, some _ => .assigned 1
    | .panicking, none => .dropped
  | .list | .get => .forwarded
  | .update | .delete =>
    match c with
    | .returned => .assigned 2
    | .panicking => .dropped

section

variable (t : Table) (o : Options)

theorem text_accessorCall (op : Operation) :
    ∃ rest, (accessorCall t o op).toList
      = o.package.toList ++ ['.'] ++ (((accessor t op).name t.modelName).toList ++ '(' :: rest) := by
  unfold accessorCall
  cases (accessor t op).isPaged with
  | true => exact ⟨"p.DB, s, page, size)".toList, by simp⟩
  | false => exact ⟨"p.DB, s)".toList, by simp⟩

theorem calls_accessorCall (op : Operation) :
    calls (o.package ++ ".") (line (accessorCall t o op))
      = [⟨(accessor t op).name t.modelName, .dropped⟩] := by
  obtain ⟨rest, hrest⟩ := text_accessorCall t o op
  exact calls_bare ((accessor t op).isName_name (isName_modelName t)) hrest

theorem calls_returned (op : Operation) :
    calls (o.package ++ ".") (line ("return " ++ accessorCall t o op))
      = [⟨(accessor t op).name t.modelName, .forwarded⟩] := by
  obtain ⟨rest, hrest⟩ := text_accessorCall t o op
  have htext : ("return " ++ accessorCall t o op).toList
      = "return ".toList ++ (o.package.toList ++ ['.']
        ++ (((accessor t op).name t.modelName).toList ++ '(' :: rest)) := by
    rw [String.toList_append, hrest]
  exact calls_return ((accessor t op).isName_name (isName_modelName t)) htext

/-- The call with a text before it that ends with `:= `, after the names of the results. -/
theorem calls_assigned (op : Operation) (front : String) (targets : List Char)
    (hfront : front.toList = targets ++ ":= ".toList)
    (htargets : ∀ c ∈ targets, isTargetChar c = true) (hfirst : targets.head? ≠ some 'r') {n : Nat}
    (hcount : countNames targets = n) :
    calls (o.package ++ ".") (line (front ++ accessorCall t o op))
      = [⟨(accessor t op).name t.modelName, .assigned n⟩] := by
  obtain ⟨rest, hrest⟩ := text_accessorCall t o op
  have htext : (front ++ accessorCall t o op).toList
      = targets ++ (":= ".toList ++ (o.package.toList ++ ['.']
        ++ (((accessor t op).name t.modelName).toList ++ '(' :: rest))) := by
    rw [String.toList_append, hfront, hrest, List.append_assoc]
  rw [← hcount]
  exact calls_assign htargets hfirst ((accessor t op).isName_name (isName_modelName t)) htext

/-- A field of the record is set by no call. -/
theorem calls_setRecord (c : Column) {value : String} (hvalue : '.' ∉ value.toList) :
    calls (o.package ++ ".") (line (c.ofRecord ++ " = " ++ value)) = [] := by
  have hrest : '.' ∉ "= ".toList ++ value.toList := by
    rw [List.mem_append, not_or]
    exact ⟨by decide, hvalue⟩
  refine calls_setField (isName_upperCamel c.name) hrest ?_
  simp [Column.ofRecord, Column.fieldName]

/-- The generated id is put into the record by no call. -/
theorem calls_assignId? {c : Column} {assign : Code} (h : assignId? c = some assign) :
    calls (o.package ++ ".") assign = [] := by
  have hassign (value : String) (hvalue : '.' ∉ value.toList) :
      calls (o.package ++ ".")
        (if c.isPointer then lines ["v := " ++ value, c.ofRecord ++ " = &v"]
          else line (c.ofRecord ++ " = " ++ value)) = [] := by
    split
    · have hpointer : calls (o.package ++ ".") (line (c.ofRecord ++ " = &v")) = [] := by
        have hsplit : c.ofRecord ++ " = &v" = c.ofRecord ++ " = " ++ "&v" := by
          rw [String.append_assoc]
          rfl
        rw [hsplit]
        exact calls_setRecord o c (by decide)
      have hvariable : calls (o.package ++ ".") (line ("v := " ++ value)) = [] := by
        refine calls_of_notMem fun l hl => ?_
        obtain rfl : l = ⟨0, "v := " ++ value⟩ := List.mem_singleton.1 hl
        rw [String.toList_append, List.mem_append, not_or]
        exact ⟨by decide, hvalue⟩
      rw [calls_lines_cons, calls_lines_cons, hvariable, hpointer]
      rfl
    · exact calls_setRecord o c hvalue
  unfold assignId? at h
  simp only at h
  cases hcategory : c.category with
  | int32 =>
    rw [hcategory, Option.some.injEq] at h
    rw [← h]
    exact hassign "int32(id)" (by decide)
  | int64 =>
    rw [hcategory, Option.some.injEq] at h
    rw [← h]
    exact hassign "id" (by decide)
  | bool | float | text | temporal | other =>
    rw [hcategory] at h
    cases h

theorem calls_plainCreate :
    calls (o.package ++ ".") (plainCreate t o)
      = [⟨(accessor t .create).name t.modelName, taken t o.convention .create⟩] := by
  have hcheck : calls (o.package ++ ".") (block "if err != nil" (line "return err")) = [] :=
    calls_of_notMem (by decide)
  have herr : calls (o.package ++ ".") (line "return err") = [] := calls_of_notMem (by decide)
  have hnil : calls (o.package ++ ".") (line "return nil") = [] := calls_of_notMem (by decide)
  unfold plainCreate taken
  cases hassign : (t.columns.find? (·.flags.autoIncrement)).bind assignId? with
  | some assign =>
    obtain ⟨c, -, hc⟩ := Option.bind_eq_some_iff.1 hassign
    have hid := calls_assignId? o hc
    cases o.convention with
    | returned =>
      have hcall : calls (o.package ++ ".") (line ("id, err := " ++ accessorCall t o .create))
          = [⟨(accessor t .create).name t.modelName, .assigned 2⟩] :=
        calls_assigned t o .create _ "id, err ".toList (by decide) (by decide) (by decide) (by decide)
      simp only
      rw [calls_append, calls_append, calls_append, hcheck, hid, hnil, hcall]
      rfl
    | panicking =>
      have hcall : calls (o.package ++ ".") (line ("id := " ++ accessorCall t o .create))
          = [⟨(accessor t .create).name t.modelName, .assigned 1⟩] :=
        calls_assigned t o .create _ "id ".toList (by decide) (by decide) (by decide) (by decide)
      simp only
      rw [calls_append, hid, hcall]
      rfl
  | none =>
    cases o.convention with
    | returned =>
      have hcall : calls (o.package ++ ".") (line ("_, err := " ++ accessorCall t o .create))
          = [⟨(accessor t .create).name t.modelName, .assigned 2⟩] :=
        calls_assigned t o .create _ "_, err ".toList (by decide) (by decide) (by decide) (by decide)
      simp only
      rw [calls_lines_cons, calls_lines_cons, herr, hcall]
      rfl
    | panicking => exact calls_accessorCall t o .create

theorem calls_plainExecute (op : Operation) :
    calls (o.package ++ ".") (plainExecute t o op)
      = [⟨(accessor t op).name t.modelName,
          match o.convention with
          | .returned => .assigned 2
          | .panicking => .dropped⟩] := by
  have herr : calls (o.package ++ ".") (line "return err") = [] := calls_of_notMem (by decide)
  unfold plainExecute
  cases o.convention with
  | returned =>
    have hcall : calls (o.package ++ ".") (line ("_, err := " ++ accessorCall t o op))
        = [⟨(accessor t op).name t.modelName, .assigned 2⟩] :=
      calls_assigned t o op _ "_, err ".toList (by decide) (by decide) (by decide) (by decide)
    simp only
    rw [calls_lines_cons, calls_lines_cons, herr, hcall]
    rfl
  | panicking => exact calls_accessorCall t o op

/-- A method of the plain style calls a function once: the accessor of its operation. -/
theorem calls_plainBody (op : Operation) :
    calls (o.package ++ ".") (plainBody t o op)
      = [⟨(accessor t op).name t.modelName, taken t o.convention op⟩] := by
  cases op with
  | create => exact calls_plainCreate t o
  | list => exact calls_returned t o .list
  | get => exact calls_returned t o .get
  | update => exact calls_plainExecute t o .update
  | delete => exact calls_plainExecute t o .delete

end

end Service

end GoScaffold
