import GoScaffold.Artifact.Router
import GoScaffold.Artifact.Service
import GoScaffold.Proofs.Artifact.Rounding
import GoScaffold.Proofs.Go.Functions

set_option autoImplicit false

/-! # What the artifacts declare

The functions of the three files of code, read off their lines: per table the file of data access
functions declares a scanner, a function for pages and the accessors, the router a handler and the
service a method for each operation of the table, and besides these each file has a few functions of
its own. -/

namespace GoScaffold

open Go Text

/-! ## Names -/

theorem isName_modelName (t : Table) : IsName t.modelName := isName_upperCamel t.name

theorem isName_groupSuffix (columns : List Column) : IsName (groupSuffix columns) := by
  refine isName_concat fun s hs => ?_
  obtain ⟨c, -, rfl⟩ := List.mem_map.1 hs
  exact isName_upperCamel c.name

theorem isName_methodName (op : Operation) {model : String} (h : IsName model) :
    IsName (op.methodName model) := by
  have hverb : IsName op.verb := by
    cases op <;> decide
  exact isName_append hverb h

theorem isName_orderSuffix (order : ListOrder) : IsName order.suffix := by
  have hby (columns : List Column) : IsName ("OrderBy" ++ groupSuffix columns) :=
    isName_append (by decide) (isName_groupSuffix columns)
  cases order with
  | unordered => exact (by decide : IsName "")
  | ascending columns => exact hby columns
  | descending columns => exact isName_append (hby columns) (by decide)

namespace Accessor

/-- What stands before the model in the name of a function. -/
def verb : Accessor → String
  | .create => "Create"
  | .update _ => "Update"
  | .get _ => "Query"
  | .listBy _ _ | .list _ => "QueryMany"
  | .delete _ | .mark _ _ _ => "Delete"
  | .restore _ _ _ => "UnDelete"

/-- What stands behind the model in the name of a function. -/
def suffix : Accessor → String
  | .create => ""
  | .update key | .get key | .delete key | .mark key _ _ | .restore key _ _ =>
    "By" ++ groupSuffix key
  | .listBy key order => "By" ++ groupSuffix key ++ order.suffix
  | .list order => order.suffix

theorem name_eq_append (model : String) (a : Accessor) :
    a.name model = a.verb ++ (model ++ a.suffix) := by
  cases a <;> simp [name, verb, suffix, String.append_assoc]

/-- The verbs of all functions. -/
def verbs : List String := ["Create", "Update", "Query", "QueryMany", "Delete", "UnDelete"]

theorem verb_mem_verbs (a : Accessor) : a.verb ∈ verbs := by
  cases a <;> simp [verb, verbs]

theorem isName_suffix (a : Accessor) : IsName a.suffix := by
  have hby (key : List Column) : IsName ("By" ++ groupSuffix key) :=
    isName_append (by decide) (isName_groupSuffix key)
  cases a with
  | create => exact (by decide : IsName "")
  | update key | get key | delete key | mark key c literal | restore key c literal => exact hby key
  | listBy key order => exact isName_append (hby key) (isName_orderSuffix order)
  | list order => exact isName_orderSuffix order

theorem isName_name (a : Accessor) {model : String} (h : IsName model) : IsName (a.name model) := by
  have hverbs : ∀ verb ∈ verbs, IsName verb := by decide
  rw [name_eq_append]
  exact isName_append (hverbs _ a.verb_mem_verbs) (isName_append h a.isName_suffix)

end Accessor

/-! ## Data access -/

/-- The signature of an accessor for a record type. -/
def Accessor.signature (model : String) (c : Convention) (a : Accessor) : Signature where
  receiver := none
  name := a.name model
  parameters := "db DataSource, s *" ++ model ++ (if a.isPaged then ", page int, size int" else "")
  results := c.resultTypes (a.resultTypes model)

theorem Accessor.head_eq_text (model : String) (c : Convention) (a : Accessor) :
    a.head model c = (a.signature model c).text := by
  rw [head, Convention.results_eq_resultText]
  unfold signature Signature.text Signature.front
  rw [← String.toList_inj]
  cases a.isPaged <;> simp

namespace Access

/-- The signature of the scanner of a table. -/
def scanSignature (model : String) : Signature :=
  ⟨none, "scan" ++ model, "row interface\x7b Scan(dest ...any) error \x7d", ["*" ++ model, "error"]⟩

/-- The signature of the function that fetches pages of a table. -/
def pageSignature (model : String) : Signature :=
  ⟨none, "queryMany" ++ model,
    "db DataSource, where string, order string, args []any, page int, size int",
    ["int", "[]*" ++ model, "error"]⟩

/-- The signatures of the functions for a table. -/
def tableSignatures (t : Table) (o : Options) : List Signature :=
  scanSignature t.modelName :: pageSignature t.modelName
    :: (Accessor.ofTable t o).map (·.signature t.modelName o.convention)

/-- The signatures of the functions that all tables share. -/
def sharedSignatures (c : Convention) (rounds : Bool) : List Signature :=
  [⟨none, "placeholders", "n int", ["string"]⟩,
      ⟨none, "rowsAffected", "result sql.Result, err error", ["int64", "error"]⟩]
    ++ (match c with
      | .panicking => [⟨none, "assertErrorNil", "err error", []⟩]
      | .returned => [])
    ++ (if rounds then [⟨none, "truncateTime", "t *time.Time, d time.Duration", ["*time.Time"]⟩]
      else [])

/-- The signatures of the functions of the file. -/
def signatures (tables : List Table) (o : Options) : List Signature :=
  sharedSignatures o.convention (rounds tables o) ++ tables.flatMap (tableSignatures · o)

theorem heads_sharedCode :
    (functions sharedCode).map (·.head)
      = ["func placeholders(n int) string \x7b",
        "func rowsAffected(result sql.Result, err error) (int64, error) \x7b"] := by decide

theorem heads_assertHelper :
    (functions Convention.assertHelper).map (·.head) = ["func assertErrorNil(err error) \x7b"] := by
  decide

theorem heads_truncateCode :
    (functions truncateCode).map (·.head)
      = ["func truncateTime(t *time.Time, d time.Duration) *time.Time \x7b"] := by decide

theorem isFlush_assertHelper : IsFlush Convention.assertHelper := isFlush_declaration _ _

theorem heads_preamble (c : Convention) (rounds : Bool) :
    (functions (preamble c rounds)).map (·.head)
      = (sharedSignatures c rounds).map fun s => s.text ++ " \x7b" := by
  have hrounding : IsFlush (if rounds = true then truncateCode else []) := by
    cases rounds with
    | true => exact isFlush_declaration _ _
    | false => exact isFlush_nil
  have hheads : (functions (if rounds = true then truncateCode else [])).map (·.head)
      = if rounds = true
        then ["func truncateTime(t *time.Time, d time.Duration) *time.Time \x7b"] else [] := by
    cases rounds with
    | true => exact heads_truncateCode
    | false => rfl
  unfold preamble
  rw [functions_append hrounding, List.map_append, hheads]
  cases c with
  | returned =>
    simp only [List.append_nil]
    rw [heads_sharedCode]
    cases rounds <;> decide
  | panicking =>
    simp only
    rw [functions_append isFlush_assertHelper, List.map_append, heads_sharedCode,
      heads_assertHelper]
    cases rounds <;> decide

theorem text_scanSignature (model : String) :
    "func scan" ++ model ++ "(row interface\x7b Scan(dest ...any) error \x7d) (*" ++ model ++ ", error)"
      = (scanSignature model).text := by
  unfold scanSignature Signature.text Signature.front resultText
  rw [← String.toList_inj]
  simp [join]

theorem scanCode_eq (t : Table) :
    ∃ body, scanCode t = declaration (scanSignature t.modelName).text body := by
  unfold scanCode
  rw [← text_scanSignature]
  exact ⟨_, rfl⟩

theorem text_pageSignature (model : String) :
    "func queryMany" ++ model
        ++ "(db DataSource, where string, order string, args []any, page int, size int) (int, []*"
        ++ model ++ ", error)"
      = (pageSignature model).text := by
  unfold pageSignature Signature.text Signature.front resultText
  rw [← String.toList_inj]
  simp [join]

theorem pageCode_eq (t : Table) :
    ∃ body, pageCode t = declaration (pageSignature t.modelName).text body := by
  unfold pageCode
  rw [← text_pageSignature]
  exact ⟨_, rfl⟩

/-- The function of an accessor. -/
def accessorFunction (t : Table) (o : Options) (a : Accessor) : FuncDecl :=
  (a.signature t.modelName o.convention).declare
    ((a.steps t o).flatMap (Step.code t.modelName o.convention a.zeros))

theorem functions_code (t : Table) (o : Options) (a : Accessor) :
    functions (a.code t o) = [accessorFunction t o a] := by
  have hcomment : isFunc ("// " ++ a.summary t.modelName) = false := isFunc_eq_false (by simp)
  unfold Accessor.code
  simp only
  rw [Accessor.head_eq_text, functions_append (isFlush_declaration _ _), functions_line hcomment,
    functions_signed]
  rfl

theorem isFlush_code (t : Table) (o : Options) (a : Accessor) : IsFlush (a.code t o) :=
  isFlush_cons rfl _

theorem isFlush_tableCode (t : Table) (o : Options) : IsFlush (tableCode t o) :=
  isFlush_cons rfl _

/-- The functions for a table: the scanner, the function for pages and the accessors. -/
def tableFunctions (t : Table) (o : Options) : List FuncDecl :=
  functions (scanCode t) ++ functions (pageCode t) ++ (Accessor.ofTable t o).map (accessorFunction t o)

theorem functions_tableCode (t : Table) (o : Options) :
    functions (tableCode t o) = tableFunctions t o := by
  have hscan : IsFlush (scanCode t) := isFlush_declaration _ _
  have hpage : IsFlush (pageCode t) := isFlush_declaration _ _
  have hcolumns : functions (columnsCode t) = [] := by
    rw [columnsCode, functions_append isFlush_gap, functions_gap,
      functions_line (isFunc_eq_false (by simp)), List.append_nil]
  rw [tableCode, functions_append (isFlush_flatMap (isFlush_code t o) _), functions_append hpage,
    functions_append hscan, functions_append (b := columnsCode t) (isFlush_cons rfl _),
    functions_heading, hcolumns, functions_flatMap (isFlush_code t o)]
  simp only [functions_code]
  rw [← List.map_eq_flatMap, List.nil_append, List.nil_append, tableFunctions]

/-- The functions of the file: those that all tables share, then those of each table. -/
theorem functions_file (tables : List Table) (o : Options) (today : String) :
    functions (file tables o today).body
      = functions (preamble o.convention (rounds tables o)) ++ tables.flatMap (tableFunctions · o) := by
  rw [body_file, functions_append (isFlush_flatMap (isFlush_tableCode · o) tables),
    functions_flatMap (isFlush_tableCode · o)]
  simp only [functions_tableCode]

theorem heads_tableFunctions (t : Table) (o : Options) :
    (tableFunctions t o).map (·.head) = (tableSignatures t o).map fun s => s.text ++ " \x7b" := by
  obtain ⟨scanBody, hscan⟩ := scanCode_eq t
  obtain ⟨pageBody, hpage⟩ := pageCode_eq t
  rw [tableFunctions, hscan, hpage, functions_signed, functions_signed, List.map_append, List.map_map,
    tableSignatures, List.map_cons, List.map_cons, List.map_map]
  rfl

/-- The heads of the functions of the file are those of its signatures. -/
theorem heads_file (tables : List Table) (o : Options) (today : String) :
    (functions (file tables o today).body).map (·.head)
      = (signatures tables o).map fun s => s.text ++ " \x7b" := by
  rw [functions_file, List.map_append, heads_preamble, List.map_flatMap, signatures, List.map_append,
    List.map_flatMap]
  simp only [heads_tableFunctions]

end Access

/-! ## Service -/

namespace Service

/-- The signature of the method of an operation. -/
def signature (t : Table) (o : Options) (op : Operation) : Signature where
  receiver := some ("p *" ++ o.serviceType)
  name := op.methodName t.modelName
  parameters := parameters t o op
  results := o.convention.resultTypes (op.resultTypes (recordType t o))

/-- The signatures of the methods of the file, table by table. -/
def signatures (tables : List Table) (o : Options) : List Signature :=
  tables.flatMap fun t => (Operation.ofTable t).map (signature t o)

/-- The body of the method of an operation. -/
def methodBody (t : Table) (o : Options) (op : Operation) : Code :=
  match o.style with
  | .plain => plainBody t o op
  | .orm => ormBody t o op

theorem text_signature (t : Table) (o : Options) (op : Operation) :
    "func (p *" ++ o.serviceType ++ ") " ++ op.methodName t.modelName ++ "(" ++ parameters t o op
        ++ ")" ++ o.convention.results (op.resultTypes (recordType t o))
      = (signature t o op).text := by
  rw [Convention.results_eq_resultText]
  unfold signature Signature.text Signature.front
  rw [← String.toList_inj]
  simp

theorem methodCode_eq (t : Table) (o : Options) (op : Operation) :
    methodCode t o op = declaration (signature t o op).text (methodBody t o op) := by
  rw [methodCode, ← text_signature]
  rfl

theorem isFlush_methodCode (t : Table) (o : Options) (op : Operation) :
    IsFlush (methodCode t o op) := isFlush_declaration _ _

theorem isFlush_tableCode (t : Table) (o : Options) : IsFlush (tableCode t o) := isFlush_cons rfl _

/-- The functions for a table. -/
def tableFunctions (t : Table) (o : Options) : List FuncDecl :=
  (Operation.ofTable t).map fun op => (signature t o op).declare (methodBody t o op)

theorem functions_tableCode (t : Table) (o : Options) :
    functions (tableCode t o) = tableFunctions t o := by
  have hmethod (op : Operation) :
      functions (methodCode t o op) = [(signature t o op).declare (methodBody t o op)] := by
    rw [methodCode_eq, functions_signed]
  rw [tableCode, functions_append (isFlush_flatMap (isFlush_methodCode t o) _), functions_heading,
    functions_flatMap (isFlush_methodCode t o)]
  simp only [hmethod]
  exact List.map_eq_flatMap.symm

theorem functions_file (tables : List Table) (o : Options) (today : String) :
    functions (file tables o today).body
      = functions (preamble o) ++ tables.flatMap (tableFunctions · o) := by
  rw [file, functions_append (isFlush_flatMap (isFlush_tableCode · o) tables),
    functions_flatMap (isFlush_tableCode · o)]
  simp only [functions_tableCode]

/-- Before the tables stands no function but one that panics on errors. -/
theorem functions_preamble (o : Options) :
    functions (preamble o)
      = if o.style = .orm ∧ o.convention = .panicking then functions Convention.assertHelper
        else [] := by
  have hcomment (rest : String) : functions (line ("// " ++ o.serviceType ++ rest)) = [] :=
    functions_line (isFunc_eq_false (by simp))
  have htype (field : String) :
      functions (declaration ("type " ++ o.serviceType ++ " struct") (line field)) = [] :=
    functions_declaration_of_not _ (isFunc_eq_false (by simp))
  unfold preamble
  cases o.style with
  | plain => rw [functions_append (isFlush_declaration _ _), hcomment, htype]; rfl
  | orm =>
    cases o.convention with
    | returned =>
      simp only [List.append_nil]
      rw [functions_append (isFlush_declaration _ _), hcomment, htype]
      rfl
    | panicking =>
      simp only
      rw [functions_append Access.isFlush_assertHelper, functions_append (isFlush_declaration _ _),
        hcomment, htype]
      rfl

/-- The methods of the service are those of the operations. -/
theorem methods_file (tables : List Table) (o : Options) (today : String) :
    methods ("p *" ++ o.serviceType) (file tables o today).body
      = tables.flatMap fun t => (Operation.ofTable t).map (·.methodName t.modelName) := by
  have hpreamble : (functions (preamble o)).filterMap (FuncDecl.methodOf? ("p *" ++ o.serviceType))
      = [] := by
    rw [functions_preamble]
    split
    · rw [List.filterMap_eq_nil_iff]
      intro f hf
      have hhead : f.head ∈ (functions Convention.assertHelper).map (·.head) :=
        List.mem_map_of_mem hf
      rw [Access.heads_assertHelper, List.mem_singleton] at hhead
      rw [FuncDecl.methodOf?, hhead]
      simp [dropPrefix?]
    · rfl
  have htable (t : Table) : (tableFunctions t o).filterMap
        (FuncDecl.methodOf? ("p *" ++ o.serviceType))
      = (Operation.ofTable t).map (·.methodName t.modelName) :=
    FuncDecl.filterMap_methodOf? (signature t o) (methodBody t o)
      (fun op => isName_methodName op (isName_modelName t)) (fun _ => rfl) _
  rw [methods, functions_file, List.filterMap_append, hpreamble, List.nil_append,
    List.filterMap_flatMap]
  simp only [htable]

end Service

/-! ## Router -/

namespace Router

/-- The signature of the handler of an operation. -/
def signature (op : Operation) (model : String) : Signature :=
  ⟨some "r *Router", op.methodName model, "c *gin.Context", []⟩

/-- The body of the handler of an operation. -/
def guardedBody (op : Operation) (model package : String) (c : Convention) : Code :=
  (match c with
    | .panicking => line "defer recoverWith(c)"
    | .returned => [])
    ++ handlerBody op model package c

theorem text_signature (op : Operation) (model : String) :
    "func (r *Router) " ++ op.methodName model ++ "(c *gin.Context)" = (signature op model).text := by
  unfold signature Signature.text Signature.front resultText
  rw [← String.toList_inj]
  simp

theorem handlerCode_eq (op : Operation) (model package : String) (c : Convention) :
    handlerCode op model package c
      = declaration (signature op model).text (guardedBody op model package c) := by
  rw [handlerCode.eq_def, ← text_signature]
  rfl

theorem isFlush_tableCode (t : Table) (o : Options) : IsFlush (tableCode t o) := isFlush_cons rfl _

/-- The functions for a table. -/
def tableFunctions (t : Table) (o : Options) : List FuncDecl :=
  (Operation.ofTable t).map fun op =>
    (signature op t.modelName).declare (guardedBody op t.modelName o.package o.convention)

theorem functions_tableCode (t : Table) (o : Options) :
    functions (tableCode t o) = tableFunctions t o := by
  have hflush (op : Operation) :
      IsFlush (handlerCode op t.modelName o.package o.convention) := isFlush_declaration _ _
  have hhandler (op : Operation) : functions (handlerCode op t.modelName o.package o.convention)
      = [(signature op t.modelName).declare (guardedBody op t.modelName o.package o.convention)] := by
    rw [handlerCode_eq, functions_signed]
  rw [tableCode, functions_append (isFlush_flatMap hflush _), functions_heading,
    functions_flatMap hflush]
  simp only [hhandler]
  exact List.map_eq_flatMap.symm

/-- The method that gives the map of handlers. -/
def mapFunction (tables : List Table) : FuncDecl :=
  ⟨"func (r *Router) Router() map[string]gin.HandlerFunc \x7b",
    indent (enclosed "return map[string]gin.HandlerFunc\x7b" (lines (tables.flatMap routeLines))
      "\x7d")⟩

/-- The method that registers the handlers. -/
def registerFunction : FuncDecl :=
  ⟨"func (r *Router) Register(routes gin.IRoutes) \x7b",
    indent (block "for key, handler := range r.Router()"
      (lines [
        "method, path, _ := strings.Cut(key, \" \")",
        "routes.Handle(method, path, handler)"]))⟩

theorem functions_routerCode (tables : List Table) (o : Options) :
    functions (routerCode tables o) = [mapFunction tables, registerFunction] := by
  have htype : functions (declaration "type Router struct"
      (line ("Service *service." ++ o.serviceType))) = [] :=
    functions_declaration_of_not _ (by decide)
  rw [routerCode, functions_append (isFlush_declaration _ _), functions_append (isFlush_line _),
    functions_append (isFlush_declaration _ _), functions_append (isFlush_line _), htype,
    functions_line (by decide), functions_line (by decide), functions_declaration,
    functions_declaration, if_pos (by decide), if_pos (by decide)]
  rfl

/-- The functions that answer requests, and the one that answers after a panic. -/
def helperCode (c : Convention) : Code :=
  sharedCode
    ++ (match c with
      | .panicking => recoverCode
      | .returned => [])

theorem functions_file (tables : List Table) (o : Options) (today : String) :
    functions (file tables o today).body
      = functions (helperCode o.convention) ++ [mapFunction tables, registerFunction]
        ++ tables.flatMap (tableFunctions · o) := by
  have hbody : (file tables o today).body
      = helperCode o.convention ++ routerCode tables o ++ tables.flatMap (tableCode · o) := rfl
  rw [hbody, functions_append (isFlush_flatMap (isFlush_tableCode · o) tables),
    functions_append (b := routerCode tables o) (isFlush_cons rfl _), functions_routerCode,
    functions_flatMap (isFlush_tableCode · o)]
  simp only [functions_tableCode]

theorem filterMap_helperCode (c : Convention) :
    (functions (helperCode c)).filterMap (FuncDecl.methodOf? "r *Router") = [] := by
  cases c <;> decide

theorem methodOf?_mapFunction (tables : List Table) :
    (mapFunction tables).methodOf? "r *Router" = some "Router" := by
  have hhead : (mapFunction tables).head.toList
      = ("func (" ++ "r *Router" ++ ") ").toList
        ++ ("Router".toList ++ "() map[string]gin.HandlerFunc \x7b".toList) := by
    simp [mapFunction]
  rw [FuncDecl.methodOf?, dropPrefix?_eq_some.2 hhead, Option.map_some]
  decide

theorem methodOf?_registerFunction :
    registerFunction.methodOf? "r *Router" = some "Register" := by
  have hhead : registerFunction.head.toList
      = ("func (" ++ "r *Router" ++ ") ").toList
        ++ ("Register".toList ++ "(routes gin.IRoutes) \x7b".toList) := by
    simp [registerFunction]
  rw [FuncDecl.methodOf?, dropPrefix?_eq_some.2 hhead, Option.map_some]
  decide

/-- The methods of the router are the map of handlers, their registration, and the handlers of the
operations. -/
theorem methods_file (tables : List Table) (o : Options) (today : String) :
    methods "r *Router" (file tables o today).body
      = "Router" :: "Register"
        :: tables.flatMap fun t => (Operation.ofTable t).map (·.methodName t.modelName) := by
  have htable (t : Table) : (tableFunctions t o).filterMap (FuncDecl.methodOf? "r *Router")
      = (Operation.ofTable t).map (·.methodName t.modelName) :=
    FuncDecl.filterMap_methodOf? (fun op => signature op t.modelName)
      (fun op => guardedBody op t.modelName o.package o.convention)
      (fun op => isName_methodName op (isName_modelName t)) (fun _ => rfl) _
  rw [methods, functions_file, List.filterMap_append, List.filterMap_append, filterMap_helperCode,
    List.filterMap_cons_some (methodOf?_mapFunction tables),
    List.filterMap_cons_some methodOf?_registerFunction, List.filterMap_flatMap]
  simp only [htable]
  rfl

end Router

end GoScaffold
