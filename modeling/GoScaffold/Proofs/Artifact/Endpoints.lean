import GoScaffold.Artifact.Document
import GoScaffold.Proofs.Artifact.Declared
import GoScaffold.Proofs.Json.Characters

set_option autoImplicit false

/-! # Endpoints

The operations that the router and the document list, read off the text of each. The router lists
them in the map that its method `Router` returns, one to a line; the document heads the section of
each with its title and names the method and the path below it. -/

namespace GoScaffold

open Go Text

/-! ## Routes -/

/-- An entry of the map of handlers. -/
structure Route where
  method : String
  path : String
  handler : String
  deriving DecidableEq, Repr

/-- The entry that a line of the map makes: a quoted key of method and path, and the handler. -/
def routeOf? (cs : List Char) : Option Route :=
  (dropPrefix? ['"'] cs).bind fun rest =>
    (splitOnce '"' rest).bind fun (key, value) =>
      (splitOnce ' ' key).bind fun (method, path) =>
        (dropPrefix? ": r.".toList value).map fun handler =>
          ⟨String.ofList method, String.ofList path, String.ofList (handler.takeWhile isNameChar)⟩

/-- The entries that the lines of code make. -/
def entries (c : Code) : List Route := c.filterMap fun l => routeOf? l.text.toList

theorem entries_append (a b : Code) : entries (a ++ b) = entries a ++ entries b :=
  List.filterMap_append

theorem entries_indent (c : Code) : entries (indent c) = entries c := by
  rw [entries, indent, List.filterMap_map]
  rfl

theorem entries_lines (texts : List String) :
    entries (Go.lines texts) = texts.filterMap fun text => routeOf? text.toList := by
  rw [entries, Go.lines, List.filterMap_map]
  rfl

/-- The entries of the map that the method `Router` returns. -/
def routes (c : Code) : List Route :=
  ((functions c).filter fun f => f.methodOf? "r *Router" == some "Router").flatMap fun f =>
    entries f.body

/-- The entry for an operation of a table. -/
def Operation.toRoute (op : Operation) (t : Table) : Route :=
  ⟨op.method, op.route t, op.methodName t.modelName⟩

/-- A character of a path. -/
def isPathChar (c : Char) : Bool := isNameChar c || c == '/' || c == '-'

theorem Operation.isPathChar_route (op : Operation) (t : Table) :
    ∀ c ∈ (op.route t).toList, isPathChar c = true := by
  have happend {a b : String} (ha : ∀ c ∈ a.toList, isPathChar c = true)
      (hb : ∀ c ∈ b.toList, isPathChar c = true) : ∀ c ∈ (a ++ b).toList, isPathChar c = true := by
    intro c hc
    rw [String.toList_append, List.mem_append] at hc
    exact hc.elim (ha c) (hb c)
  have hname : ∀ c ∈ t.routeName.toList, isPathChar c = true := by
    intro c hc
    rcases Naming.mem_kebab hc with rfl | hc
    · decide
    · simp [isPathChar, hc]
  have hbase := happend (a := "/api/") (by decide) hname
  cases op with
  | list => exact happend hbase (by decide)
  | get => exact happend hbase (by decide)
  | create => exact hbase
  | update => exact hbase
  | delete => exact hbase

theorem Operation.notMem_route (op : Operation) (t : Table) {c : Char} (h : isPathChar c = false) :
    c ∉ (op.route t).toList :=
  fun hc => absurd (op.isPathChar_route t c hc) (by simp [h])

theorem routeOf?_routeLine (t : Table) (op : Operation) :
    routeOf? (Router.routeLine t op).toList = some (op.toRoute t) := by
  have hmethod : ' ' ∉ op.method.toList ∧ '"' ∉ op.method.toList := by
    cases op <;> decide
  have hkey : '"' ∉ op.method.toList ++ ' ' :: (op.route t).toList := by
    rw [List.mem_append, List.mem_cons, not_or, not_or]
    exact ⟨hmethod.2, by decide, op.notMem_route t (by decide)⟩
  have htext : (Router.routeLine t op).toList
      = ['"'] ++ ((op.method.toList ++ ' ' :: (op.route t).toList)
        ++ '"' :: (": r.".toList ++ ((op.methodName t.modelName).toList ++ [',']))) := by
    simp [Router.routeLine, Router.routeKey]
  have hname := takeWhile_name_cons (isName_methodName op (isName_modelName t)) (d := ',')
    (by decide) []
  unfold routeOf?
  rw [dropPrefix?_eq_some.2 htext, Option.bind_some, splitOnce_append hkey, Option.bind_some]
  simp only
  rw [splitOnce_append hmethod.1, Option.bind_some]
  simp only
  rw [dropPrefix?_eq_some.2 rfl, Option.map_some, hname, String.ofList_toList, String.ofList_toList,
    String.ofList_toList]
  rfl

/-- The method that gives the map of handlers is the only one of its name. -/
theorem filter_mapFunction (tables : List Table) (o : Options) (today : String) :
    (functions (Router.file tables o today).body).filter
        (fun f => f.methodOf? "r *Router" == some "Router") = [Router.mapFunction tables] := by
  have hhelper : (functions (Router.helperCode o.convention)).filter
      (fun f => f.methodOf? "r *Router" == some "Router") = [] := by
    rw [List.filter_eq_nil_iff]
    intro f hf
    have hnone := List.filterMap_eq_nil_iff.1 (Router.filterMap_helperCode o.convention) f hf
    simp [hnone]
  have htable : (tables.flatMap (Router.tableFunctions · o)).filter
      (fun f => f.methodOf? "r *Router" == some "Router") = [] := by
    rw [List.filter_eq_nil_iff]
    intro f hf
    obtain ⟨t, -, hf⟩ := List.mem_flatMap.1 hf
    obtain ⟨op, -, rfl⟩ := List.mem_map.1 hf
    have hverb : (op.methodName t.modelName).toList.head? ≠ "Router".toList.head? := by
      cases op <;> simp [Operation.methodName, Operation.verb]
    have hname : op.methodName t.modelName ≠ "Router" := fun h => hverb (by rw [h])
    have hsignature : (Router.signature op t.modelName).name = op.methodName t.modelName := rfl
    rw [FuncDecl.methodOf?_declare (isName_methodName op (isName_modelName t)) rfl, hsignature]
    simpa using hname
  rw [Router.functions_file, List.filter_append, List.filter_append, hhelper, htable,
    List.filter_cons_of_pos (by simp [Router.methodOf?_mapFunction]),
    List.filter_cons_of_neg (by simp [Router.methodOf?_registerFunction])]
  rfl

theorem filterMap_routeLines (t : Table) :
    (Router.routeLines t).filterMap (fun text => routeOf? text.toList)
      = (Operation.ofTable t).map (·.toRoute t) := by
  rw [Router.routeLines]
  induction Operation.ofTable t with
  | nil => rfl
  | cons op ops ih =>
    rw [List.map_cons, List.filterMap_cons, routeOf?_routeLine, ih, List.map_cons]

/-- The router lists the operations of each table. -/
theorem routes_file (tables : List Table) (o : Options) (today : String) :
    routes (Router.file tables o today).body
      = tables.flatMap fun t => (Operation.ofTable t).map (·.toRoute t) := by
  have hopening : entries (line "return map[string]gin.HandlerFunc\x7b") = [] := by decide
  have hclosing : entries (line "\x7d") = [] := by decide
  have hlines : entries (lines (tables.flatMap Router.routeLines))
      = tables.flatMap fun t => (Operation.ofTable t).map (·.toRoute t) := by
    rw [entries_lines, List.filterMap_flatMap]
    simp only [filterMap_routeLines]
  rw [routes, filter_mapFunction, List.flatMap_singleton, Router.mapFunction, entries_indent,
    enclosed, entries_append, entries_append, entries_indent, hopening, hclosing, hlines,
    List.nil_append, List.append_nil]

/-! ## The document -/

/-- An operation as the document heads its section. -/
structure Endpoint where
  title : String
  method : String
  path : String
  deriving DecidableEq, Repr

/-- The heading that a text begins with: a title of the third level and, below it, a method and a
path between backticks. -/
def endpointOf? (cs : List Char) : Option Endpoint :=
  (dropPrefix? "### ".toList cs).bind fun rest =>
    (splitOnce '\n' rest).bind fun (title, rest) =>
      (dropPrefix? "\n`".toList rest).bind fun rest =>
        (splitOnce ' ' rest).bind fun (method, rest) =>
          (splitOnce '`' rest).map fun (path, _) =>
            ⟨String.ofList title, String.ofList method, String.ofList path⟩

/-- The headings of operations in a text, in order. -/
def endpointsIn : List Char → List Endpoint
  | [] => []
  | c :: cs => (endpointOf? (c :: cs)).toList ++ endpointsIn cs

/-- `endpointsIn` on strings. -/
def endpoints (text : String) : List Endpoint := endpointsIn text.toList

/-- The heading of an operation of a table. -/
def Operation.toEndpoint (op : Operation) (t : Table) : Endpoint := ⟨op.title, op.method, op.route t⟩

theorem endpointsIn_cons_of_none {c : Char} {cs : List Char} (h : endpointOf? (c :: cs) = none) :
    endpointsIn (c :: cs) = endpointsIn cs := by
  rw [endpointsIn, h]
  rfl

/-- A text without `#` has no heading. -/
theorem endpointsIn_append {cs : List Char} (h : '#' ∉ cs) (rest : List Char) :
    endpointsIn (cs ++ rest) = endpointsIn rest := by
  induction cs with
  | nil => rfl
  | cons c cs ih =>
    rw [List.mem_cons, not_or] at h
    have hnone : endpointOf? (c :: (cs ++ rest)) = none := by
      simp [endpointOf?, dropPrefix?, h.1]
    rw [List.cons_append, endpointsIn_cons_of_none hnone, ih h.2]

/-- A heading is read once, and then what follows it. -/
theorem endpointsIn_heading {title method path : List Char} (htitle : '\n' ∉ title)
    (hmethod : ' ' ∉ method) (hpath : '`' ∉ path) (rest : List Char) :
    endpointsIn ("### ".toList
        ++ (title ++ '\n' :: ("\n`".toList ++ (method ++ ' ' :: (path ++ '`' :: rest)))))
      = ⟨String.ofList title, String.ofList method, String.ofList path⟩
        :: endpointsIn (title ++ '\n' :: ("\n`".toList ++ (method ++ ' ' :: (path ++ '`' :: rest)))) := by
  have hread : endpointOf? ("### ".toList
        ++ (title ++ '\n' :: ("\n`".toList ++ (method ++ ' ' :: (path ++ '`' :: rest)))))
      = some ⟨String.ofList title, String.ofList method, String.ofList path⟩ := by
    unfold endpointOf?
    rw [dropPrefix?_eq_some.2 rfl, Option.bind_some, splitOnce_append htitle, Option.bind_some]
    simp only
    rw [dropPrefix?_eq_some.2 rfl, Option.bind_some, splitOnce_append hmethod, Option.bind_some]
    simp only
    rw [splitOnce_append hpath]
    rfl
  generalize title ++ '\n' :: ("\n`".toList ++ (method ++ ' ' :: (path ++ '`' :: rest))) = cs at hread ⊢
  have hmarks : "### ".toList ++ cs = '#' :: '#' :: '#' :: ' ' :: cs := rfl
  rw [hmarks] at hread ⊢
  rw [endpointsIn, hread, endpointsIn_cons_of_none (by simp [endpointOf?, dropPrefix?]),
    endpointsIn_cons_of_none (by simp [endpointOf?, dropPrefix?]),
    endpointsIn_cons_of_none (by simp [endpointOf?, dropPrefix?])]
  rfl

namespace Document

open Json

theorem sharp_notMem_ownChars : '#' ∉ ownChars := by decide

theorem avoids_sample (c : Column) : Avoids '#' (sample c) := by
  have hall : ∀ entry ∈ samples, Avoids '#' entry.2 := by
    simp [samples, Avoids]
  unfold sample
  split
  · next names value hfind => exact hall _ (List.mem_of_find?_eq_some hfind)
  · rw [Avoids, AvoidsMembers]
    trivial

theorem sharp_notMem_wireName (c : Column) : '#' ∉ c.wireName.toList := by
  intro h
  rcases Naming.mem_snake_upperCamel h with h | h
  · exact absurd h (by decide)
  · exact absurd h (by decide)

theorem avoids_sampleRecord (columns : List Column) : AvoidsMembers '#' (sampleRecord columns) := by
  have hfold (members : List (String × Json)) (h : AvoidsMembers '#' members) :
      AvoidsMembers '#' (columns.foldl (fun members c => Json.set members c.wireName (sample c)) members) := by
    induction columns generalizing members with
    | nil => exact h
    | cons c columns ih =>
      exact ih _ (avoidsMembers_set h (sharp_notMem_wireName c) (avoids_sample c))
  exact hfold [] (by rw [AvoidsMembers]; trivial)

theorem avoids_requestData (t : Table) (op : Operation) : AvoidsMembers '#' (requestData t op) := by
  cases op with
  | create => exact avoids_sampleRecord _
  | update => exact avoids_sampleRecord _
  | get => exact avoids_sampleRecord _
  | delete => exact avoids_sampleRecord _
  | list =>
    have hnumber (digits : String) (h : '#' ∉ digits.toList) : Avoids '#' (.number digits) := by
      rw [Avoids]
      exact h
    exact avoidsMembers_set (avoidsMembers_set (avoids_sampleRecord _) (by decide)
      (hnumber "1" (by decide))) (by decide) (hnumber "10" (by decide))

theorem avoids_request (t : Table) (op : Operation) : Avoids '#' (request (requestData t op)) := by
  have hdata := avoids_requestData t op
  simp only [request, Avoids, AvoidsMembers]
  exact ⟨by decide, by decide, by decide, hdata, trivial⟩

theorem avoids_response (t : Table) (op : Operation) : Avoids '#' (response (responseData t op)) := by
  have hrecord := avoids_sampleRecord t.columns
  cases op with
  | create | update | get =>
    simp only [response, responseData, Option.toList_some, List.map_cons, List.map_nil,
      List.cons_append, List.nil_append, Avoids, AvoidsMembers]
    exact ⟨by decide, by decide, by decide, by decide, by decide, hrecord, trivial⟩
  | list =>
    simp only [response, responseData, Option.toList_some, List.map_cons, List.map_nil,
      List.cons_append, List.nil_append, Avoids, AvoidsMembers, AvoidsItems]
    exact ⟨by decide, by decide, by decide, by decide, by decide,
      ⟨by decide, by decide, by decide, ⟨hrecord, trivial⟩, trivial⟩, trivial⟩
  | delete =>
    simp only [response, responseData, Option.toList_none, List.map_nil, List.append_nil, Avoids,
      AvoidsMembers]
    exact ⟨by decide, by decide, by decide, by decide, trivial⟩

/-- What stands in the section of an operation after its heading: the sample request and answer, and
a command that sends the request. -/
def sectionBody (t : Table) (op : Operation) : String :=
  "\n\nRequest:\n\n```json\n" ++ (request (requestData t op)).pretty 0
    ++ "\n```\n\nResponse:\n\n```json\n" ++ (response (responseData t op)).pretty 0
    ++ "\n```\n\nExample:\n\n```shell\ncurl -X " ++ op.method ++ " \"http://$HOST:$PORT"
    ++ op.route t ++ "\" -H \"Content-Type: application/json\" -d '"
    ++ (request (requestData t op)).compact ++ "'\n```\n\n"

theorem operationSection_eq (t : Table) (op : Operation) :
    (operationSection t op).toList
      = "### ".toList ++ (op.title.toList ++ '\n' :: ("\n`".toList
        ++ (op.method.toList ++ ' ' :: ((op.route t).toList ++ '`' :: (sectionBody t op).toList)))) := by
  unfold operationSection sectionBody
  simp only
  generalize (request (requestData t op)).pretty 0 = body
  generalize (response (responseData t op)).pretty 0 = answer
  generalize (request (requestData t op)).compact = inline
  simp

theorem sharp_notMem_sectionBody (t : Table) (op : Operation) :
    '#' ∉ (sectionBody t op).toList := by
  have hpretty := notMem_pretty sharp_notMem_ownChars 0 _ (avoids_request t op)
  have hanswer := notMem_pretty sharp_notMem_ownChars 0 _ (avoids_response t op)
  have hcompact := notMem_compact sharp_notMem_ownChars _ (avoids_request t op)
  have hmethod : '#' ∉ op.method.toList := by
    cases op <;> decide
  have hroute : '#' ∉ (op.route t).toList := op.notMem_route t (by decide)
  have hrequest : '#' ∉ ("\n\nRequest:\n\n```json\n" ++ (request (requestData t op)).pretty 0).toList :=
    notMem_append (by decide) hpretty
  have hresponse := notMem_append (notMem_append hrequest
    (t := "\n```\n\nResponse:\n\n```json\n") (by decide)) hanswer
  have hcommand := notMem_append (notMem_append (notMem_append (notMem_append hresponse
    (t := "\n```\n\nExample:\n\n```shell\ncurl -X ") (by decide)) hmethod)
    (t := " \"http://$HOST:$PORT") (by decide)) hroute
  have hdata := notMem_append (notMem_append hcommand
    (t := "\" -H \"Content-Type: application/json\" -d '") (by decide)) hcompact
  exact notMem_append hdata (by decide)

/-- The section of an operation is headed by the operation. -/
theorem endpointsIn_operationSection (t : Table) (op : Operation) (rest : List Char) :
    endpointsIn ((operationSection t op).toList ++ rest) = op.toEndpoint t :: endpointsIn rest := by
  have htitle : '\n' ∉ op.title.toList ∧ '#' ∉ op.title.toList := by
    cases op <;> decide
  have hmethod : ' ' ∉ op.method.toList ∧ '#' ∉ op.method.toList := by
    cases op <;> decide
  have hpath : '`' ∉ (op.route t).toList := op.notMem_route t (by decide)
  have hroute : '#' ∉ (op.route t).toList := op.notMem_route t (by decide)
  have hbody := sharp_notMem_sectionBody t op
  have hplain : '#' ∉ op.title.toList ++ '\n' :: ("\n`".toList
      ++ (op.method.toList ++ ' ' :: ((op.route t).toList ++ '`' :: (sectionBody t op).toList))) := by
    simp [htitle.2, hmethod.2, hroute, hbody]
  have hheading := endpointsIn_heading htitle.1 hmethod.1 hpath ((sectionBody t op).toList ++ rest)
  have hshape : (operationSection t op).toList ++ rest
      = "### ".toList ++ (op.title.toList ++ '\n' :: ("\n`".toList
        ++ (op.method.toList ++ ' ' :: ((op.route t).toList
          ++ '`' :: ((sectionBody t op).toList ++ rest))))) := by
    rw [operationSection_eq]
    simp only [List.append_assoc, List.cons_append]
  have hrest : endpointsIn (op.title.toList ++ '\n' :: ("\n`".toList
        ++ (op.method.toList ++ ' ' :: ((op.route t).toList
          ++ '`' :: ((sectionBody t op).toList ++ rest))))) = endpointsIn rest := by
    have hmove := endpointsIn_append hplain rest
    simp only [List.append_assoc, List.cons_append] at hmove
    exact hmove
  rw [hshape, hheading, hrest, String.ofList_toList, String.ofList_toList, String.ofList_toList]
  rfl

/-- The sections of the operations of a table. -/
def operationSections (t : Table) : String :=
  Text.concat ((Operation.ofTable t).map (operationSection t))

/-- What stands in the section of a table before those of its operations: its name, its comment and
its fields. -/
def tableHead (t : Table) : String :=
  "## " ++ t.modelName ++ "\n\n"
    ++ (match t.comment with
      | some comment => Text.oneLine comment ++ "\n\n"
      | none => "")
    ++ fieldsSection t

/-- The document lists the operations of a table. -/
theorem endpoints_operationSections (t : Table) :
    endpoints (operationSections t) = (Operation.ofTable t).map (·.toEndpoint t) := by
  rw [endpoints, operationSections]
  induction Operation.ofTable t with
  | nil => rfl
  | cons op ops ih =>
    rw [List.map_cons, Text.concat, String.toList_append, endpointsIn_operationSection, ih,
      List.map_cons]

end Document

end GoScaffold
