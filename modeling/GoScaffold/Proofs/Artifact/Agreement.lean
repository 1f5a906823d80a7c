import GoScaffold.Proofs.Artifact.Calling
import GoScaffold.Proofs.Artifact.Endpoints
import GoScaffold.Proofs.Schema.Keys

set_option autoImplicit false

/-! # The artifacts agree

Router, service, data access and document are rendered apart from each other, and still they fit
(`artifacts_agree`): all follow the operations of a table, what one calls another declares, and the
group behind the operations on single rows is one that the data access functions exist for
(`mem_unique_of_primary`). -/

namespace GoScaffold

open Go Text

/-! ## The primary group -/

theorem primary_of_mem_ofTable {t : Table} {op : Operation} (h : op ∈ Operation.ofTable t)
    (hcreate : op ≠ .create) (hlist : op ≠ .list) :
    t.keys.primary = some (Service.primaryKey t) := by
  unfold Operation.ofTable at h
  unfold Service.primaryKey
  cases hprimary : t.keys.primary with
  | some key => rfl
  | none =>
    rw [hprimary] at h
    simp [hcreate, hlist] at h

/-! ## Accessors behind operations -/

/-- Behind each operation stands a function that is rendered, under the name it is called by. -/
theorem exists_accessor {t : Table} {op : Operation} (o : Options) (h : op ∈ Operation.ofTable t) :
    ∃ a ∈ Accessor.ofTable t o, a.name t.modelName = (Service.accessor t op).name t.modelName
      ∧ a.resultTypes t.modelName = (Service.accessor t op).resultTypes t.modelName := by
  unfold Accessor.ofTable
  cases op with
  | create =>
    exact ⟨.create, by simp, rfl, rfl⟩
  | list =>
    have horder : ListOrder.unordered ∈ ListOrder.ofTable t o := by
      simp [ListOrder.ofTable]
    refine ⟨.list .unordered, ?_, rfl, rfl⟩
    refine List.mem_append_left _ (List.mem_append_right _ (List.mem_flatMap.2 ⟨_, horder, ?_⟩))
    exact List.mem_append_right _ (List.mem_singleton_self _)
  | update =>
    have hkey := mem_unique_of_primary (primary_of_mem_ofTable h (by decide) (by decide))
    refine ⟨.update (Service.primaryKey t), ?_, rfl, rfl⟩
    refine List.mem_append_left _ (List.mem_append_left _ (List.mem_append_right _ ?_))
    exact List.mem_flatMap.2 ⟨_, hkey, by simp⟩
  | get =>
    have hkey := mem_unique_of_primary (primary_of_mem_ofTable h (by decide) (by decide))
    refine ⟨.get (Service.primaryKey t), ?_, rfl, rfl⟩
    refine List.mem_append_left _ (List.mem_append_left _ (List.mem_append_right _ ?_))
    exact List.mem_flatMap.2 ⟨_, hkey, by simp⟩
  | delete =>
    have hkey := mem_unique_of_primary (primary_of_mem_ofTable h (by decide) (by decide))
    -- The row is removed or marked, under one name.
    cases hmark : markColumn? t o.logicalDelete with
    | none =>
      refine ⟨.delete (Service.primaryKey t), ?_, rfl, rfl⟩
      refine List.mem_append_right _ (List.mem_flatMap.2 ⟨_, hkey, ?_⟩)
      simp [Accessor.deletions, hmark]
    | some mark =>
      refine ⟨.mark (Service.primaryKey t) mark.1 (mark.2.deleteLiteral mark.1), ?_, rfl, rfl⟩
      refine List.mem_append_right _ (List.mem_flatMap.2 ⟨_, hkey, ?_⟩)
      simp [Accessor.deletions, hmark]

/-! ## Counts of results -/

theorem Convention.length_resultTypes (c : Convention) (types : List String) :
    (c.resultTypes types).length
      = match c with
        | .returned => types.length + 1
        | .panicking => types.length := by
  cases c with
  | returned => exact List.length_append
  | panicking => rfl

/-- How many results besides the error the service method of an operation has. -/
def Operation.resultCount : Operation → Nat
  | .list => 2
  | .get => 1
  | .create | .update | .delete => 0

theorem Operation.length_resultTypes (op : Operation) (record : String) :
    (op.resultTypes record).length = op.resultCount := by
  cases op <;> rfl

theorem length_resultNames (op : Operation) : (Router.resultNames op).length = op.resultCount := by
  cases op <;> rfl

/-- The function behind an operation that yields no record yields a number. -/
theorem length_accessor_resultTypes (t : Table) (op : Operation) (model : String) :
    ((Service.accessor t op).resultTypes model).length = max op.resultCount 1 := by
  cases op <;> rfl

/-- A handler takes as many results as the service method has. -/
theorem count_handler (t : Table) (o : Options) (op : Operation) :
    (Router.taken o.convention op).count 0 = (Service.signature t o op).results.length := by
  unfold Service.signature
  rw [Convention.length_resultTypes, op.length_resultTypes, ← length_resultNames]
  unfold Router.taken
  cases o.convention with
  | returned => rfl
  | panicking => cases Router.resultNames op <;> rfl

/-- A service method of the plain style drops all results of its accessor, or takes or passes on as
many as it has. -/
theorem count_accessor (t : Table) (o : Options) (op : Operation) :
    Service.taken t o.convention op = .dropped
      ∨ (Service.taken t o.convention op).count (Service.signature t o op).results.length
          = (o.convention.resultTypes ((Service.accessor t op).resultTypes t.modelName)).length := by
  unfold Service.signature
  rw [Convention.length_resultTypes, Convention.length_resultTypes, length_accessor_resultTypes,
    op.length_resultTypes]
  generalize o.convention = c
  unfold Service.taken
  cases op with
  | create =>
    cases c with
    | returned => exact Or.inr rfl
    | panicking =>
      cases (t.columns.find? (·.flags.autoIncrement)).bind Service.assignId? with
      | some assign => exact Or.inr rfl
      | none => exact Or.inl rfl
  | list => cases c <;> exact Or.inr rfl
  | get => cases c <;> exact Or.inr rfl
  | update =>
    cases c with
    | returned => exact Or.inr rfl
    | panicking => exact Or.inl rfl
  | delete =>
    cases c with
    | returned => exact Or.inr rfl
    | panicking => exact Or.inl rfl

/-! ## Calls of whole files -/

theorem calls_helperCode (c : Convention) :
    ∀ f ∈ functions (Router.helperCode c), calls "r.Service." f.body = [] := by
  cases c <;> decide

theorem calls_mapFunction (tables : List Table) :
    calls "r.Service." (Router.mapFunction tables).body = [] := by
  have hlines : calls "r.Service." (lines (tables.flatMap Router.routeLines)) = [] := by
    rw [calls, List.filterMap_eq_nil_iff]
    intro l hl
    obtain ⟨text, htext, rfl⟩ := List.mem_map.1 hl
    obtain ⟨t, -, htext⟩ := List.mem_flatMap.1 htext
    obtain ⟨op, -, rfl⟩ := List.mem_map.1 htext
    have hquote : (Router.routeLine t op).toList = ['"'] ++ (Router.routeKey t op ++ "\": r."
        ++ op.methodName t.modelName ++ ",").toList := by
      simp [Router.routeLine]
    rw [hquote]
    exact callOf?_of_rulesOut (by decide) _
  have hopening : calls "r.Service." (line "return map[string]gin.HandlerFunc\x7b") = [] := by decide
  have hclosing : calls "r.Service." (line "\x7d") = [] := by decide
  rw [Router.mapFunction, calls_indent, calls_enclosed, hlines, hopening, hclosing]
  rfl

/-- Besides the handlers no function of the router calls the service. -/
theorem calls_routerFunction {tables : List Table} {o : Options} {today : String} {f : FuncDecl}
    (hf : f ∈ functions (Router.file tables o today).body) :
    calls "r.Service." f.body = []
      ∨ ∃ t ∈ tables, ∃ op ∈ Operation.ofTable t, f = (Router.signature op t.modelName).declare
          (Router.guardedBody op t.modelName o.package o.convention) := by
  rw [Router.functions_file, List.mem_append, List.mem_append, List.mem_cons,
    List.mem_singleton] at hf
  rcases hf with (hhelper | rfl | rfl) | htables
  · exact Or.inl (calls_helperCode o.convention f hhelper)
  · exact Or.inl (calls_mapFunction tables)
  · exact Or.inl (by decide)
  · obtain ⟨t, ht, hf⟩ := List.mem_flatMap.1 htables
    obtain ⟨op, hop, rfl⟩ := List.mem_map.1 hf
    exact Or.inr ⟨t, ht, op, hop, rfl⟩

theorem calls_handler (op : Operation) (t : Table) (o : Options) :
    calls "r.Service." ((Router.signature op t.modelName).declare
        (Router.guardedBody op t.modelName o.package o.convention)).body
      = [⟨op.methodName t.modelName, Router.taken o.convention op⟩] := by
  rw [Signature.declare, calls_indent, Router.calls_guardedBody op (isName_modelName t)]

theorem calls_serviceMethod (op : Operation) (t : Table) {o : Options} (h : o.style = .plain) :
    calls (o.package ++ ".") ((Service.signature t o op).declare (Service.methodBody t o op)).body
      = [⟨(Service.accessor t op).name t.modelName, Service.taken t o.convention op⟩] := by
  have hbody : Service.methodBody t o op = Service.plainBody t o op := by
    rw [Service.methodBody, h]
  rw [Signature.declare, calls_indent, hbody, Service.calls_plainBody]

theorem mem_serviceSignatures {tables : List Table} {t : Table} (ht : t ∈ tables) {op : Operation}
    (hop : op ∈ Operation.ofTable t) (o : Options) :
    Service.signature t o op ∈ Service.signatures tables o :=
  List.mem_flatMap.2 ⟨t, ht, List.mem_map_of_mem hop⟩

theorem mem_accessSignatures {tables : List Table} {t : Table} (ht : t ∈ tables) {o : Options}
    {a : Accessor} (ha : a ∈ Accessor.ofTable t o) :
    a.signature t.modelName o.convention ∈ Access.signatures tables o := by
  refine List.mem_append_right _ (List.mem_flatMap.2 ⟨t, ht, ?_⟩)
  exact List.mem_cons_of_mem _ (List.mem_cons_of_mem _ (List.mem_map.2 ⟨a, ha, rfl⟩))

/-- The signatures of the service stand in its file. -/
theorem mem_serviceHeads {tables : List Table} {o : Options} {s : Signature}
    (hs : s ∈ Service.signatures tables o) (today : String) :
    s.text ++ " \x7b" ∈ (functions (Service.file tables o today).body).map (·.head) := by
  obtain ⟨t, ht, hs⟩ := List.mem_flatMap.1 hs
  obtain ⟨op, hop, rfl⟩ := List.mem_map.1 hs
  rw [Service.functions_file, List.map_append, List.mem_append, List.map_flatMap]
  refine Or.inr (List.mem_flatMap.2 ⟨t, ht, ?_⟩)
  rw [Service.tableFunctions, List.map_map]
  exact List.mem_map.2 ⟨op, hop, rfl⟩

/-- Each route has its handler, and this calls the service for the same operation. -/
theorem exists_handler {tables : List Table} {o : Options} {today : String} {r : Route}
    (hr : r ∈ routes (Router.file tables o today).body) :
    ∃ f ∈ functions (Router.file tables o today).body, f.methodOf? "r *Router" = some r.handler
      ∧ (calls "r.Service." f.body).map (·.callee) = [r.handler] := by
  rw [routes_file] at hr
  obtain ⟨t, ht, hr⟩ := List.mem_flatMap.1 hr
  obtain ⟨op, hop, rfl⟩ := List.mem_map.1 hr
  refine ⟨(Router.signature op t.modelName).declare
    (Router.guardedBody op t.modelName o.package o.convention), ?_, ?_, ?_⟩
  · rw [Router.functions_file]
    exact List.mem_append_right _ (List.mem_flatMap.2 ⟨t, ht, List.mem_map.2 ⟨op, hop, rfl⟩⟩)
  · exact FuncDecl.methodOf?_declare (isName_methodName op (isName_modelName t)) rfl _
  · rw [calls_handler]
    rfl

/-- A handler calls a method of the service that has as many results as it takes. -/
theorem exists_method_of_call {tables : List Table} {o : Options} {today : String} {f : FuncDecl}
    (hf : f ∈ functions (Router.file tables o today).body) {call : Go.Call}
    (hcall : call ∈ calls "r.Service." f.body) :
    ∃ s ∈ Service.signatures tables o,
      s.name = call.callee ∧ call.taken.count 0 = s.results.length := by
  rcases calls_routerFunction hf with hnone | ⟨t, ht, op, hop, rfl⟩
  · rw [hnone] at hcall
    cases hcall
  · rw [calls_handler, List.mem_singleton] at hcall
    rw [hcall]
    exact ⟨Service.signature t o op, mem_serviceSignatures ht hop o, rfl, count_handler t o op⟩

/-- A service method of the plain style calls data access functions that have as many results as it
takes or passes on, if it does not drop them all. -/
theorem exists_accessor_of_call {tables : List Table} {o : Options} {today : String}
    (hstyle : o.style = .plain) {f : FuncDecl}
    (hf : f ∈ functions (Service.file tables o today).body) :
    ∃ m ∈ Service.signatures tables o, f.head = m.text ++ " \x7b"
      ∧ ∀ call ∈ calls (o.package ++ ".") f.body, ∃ s ∈ Access.signatures tables o,
        s.name = call.callee
          ∧ (call.taken = .dropped ∨ call.taken.count m.results.length = s.results.length) := by
  have hpreamble : functions (Service.preamble o) = [] := by
    rw [Service.functions_preamble, if_neg (by simp [hstyle])]
  rw [Service.functions_file, hpreamble, List.nil_append] at hf
  obtain ⟨t, ht, hf⟩ := List.mem_flatMap.1 hf
  obtain ⟨op, hop, rfl⟩ := List.mem_map.1 hf
  refine ⟨Service.signature t o op, mem_serviceSignatures ht hop o, rfl, ?_⟩
  intro call hcall
  rw [calls_serviceMethod op t hstyle, List.mem_singleton] at hcall
  obtain ⟨a, ha, hname, hresults⟩ := exists_accessor o hop
  rw [hcall]
  refine ⟨a.signature t.modelName o.convention, mem_accessSignatures ht ha, hname, ?_⟩
  unfold Accessor.signature
  rw [hresults]
  exact count_accessor t o op

/-- The operations on single rows call functions for the primary group. -/
theorem name_accessor_of_primary {t : Table} {op : Operation} (hcreate : op ≠ .create)
    (hlist : op ≠ .list) : (Service.accessor t op).name t.modelName
      = op.verb ++ t.modelName ++ "By" ++ groupSuffix (Service.primaryKey t) := by
  cases op with
  | create => exact absurd rfl hcreate
  | list => exact absurd rfl hlist
  | update => rfl
  | get => rfl
  | delete => rfl

/-! ## Agreement -/

/-- What the artifacts of some tables have in common. -/
structure Agreement (tables : List Table) (o : Options) (today : String) : Prop where
  /-- The router lists the operations of each table, with method, path and handler. -/
  routed : routes (Router.file tables o today).body
    = tables.flatMap fun t => (Operation.ofTable t).map (·.toRoute t)
  /-- The document has a section for each table, and in it one for each operation. -/
  sections : Document.text tables o today
    = endOnce (Document.preamble o today
      ++ concat (tables.map fun t => Document.tableHead t ++ Document.operationSections t))
  /-- These list the operations of the table, with method and path. -/
  documented : ∀ t ∈ tables,
    endpoints (Document.operationSections t) = (Operation.ofTable t).map (·.toEndpoint t)
  /-- There is a handler for each of these operations and for no other. -/
  handled : methods "r *Router" (Router.file tables o today).body
    = "Router" :: "Register"
      :: tables.flatMap fun t => (Operation.ofTable t).map (·.methodName t.modelName)
  /-- There is a service method for each of these operations and for no other. -/
  served : methods ("p *" ++ o.serviceType) (Service.file tables o today).body
    = tables.flatMap fun t => (Operation.ofTable t).map (·.methodName t.modelName)
  /-- The service declares the methods with these signatures. -/
  serviceDeclared : ∀ s ∈ Service.signatures tables o,
    s.text ++ " \x7b" ∈ (functions (Service.file tables o today).body).map (·.head)
  /-- The file of data access functions declares these and no other. -/
  accessDeclared : (functions (Access.file tables o today).body).map (·.head)
    = (Access.signatures tables o).map fun s => s.text ++ " \x7b"
  /-- The handler of a route calls the service once, for the same operation. -/
  routeServed : ∀ r ∈ routes (Router.file tables o today).body,
    ∃ f ∈ functions (Router.file tables o today).body, f.methodOf? "r *Router" = some r.handler
      ∧ (calls "r.Service." f.body).map (·.callee) = [r.handler]
  /-- What a handler calls is a method of the service, with as many results as it takes. -/
  handlerCalls : ∀ f ∈ functions (Router.file tables o today).body,
    ∀ call ∈ calls "r.Service." f.body, ∃ s ∈ Service.signatures tables o,
      s.name = call.callee ∧ call.taken.count 0 = s.results.length
  /-- What a service method of the plain style calls is a data access function, with as many results
  as it takes or passes on, if it does not drop them all. -/
  serviceCalls : o.style = .plain → ∀ f ∈ functions (Service.file tables o today).body,
    ∃ m ∈ Service.signatures tables o, f.head = m.text ++ " \x7b"
      ∧ ∀ call ∈ calls (o.package ++ ".") f.body, ∃ s ∈ Access.signatures tables o,
        s.name = call.callee
          ∧ (call.taken = .dropped ∨ call.taken.count m.results.length = s.results.length)
  /-- The operations on single rows go by a group that functions are rendered for. -/
  primarySuffix : ∀ t ∈ tables, ∀ op ∈ Operation.ofTable t, op ≠ .create → op ≠ .list →
    ∃ key ∈ t.keys.unique, t.keys.primary = some key
      ∧ (Service.accessor t op).name t.modelName
        = op.verb ++ t.modelName ++ "By" ++ groupSuffix key

/-- The artifacts of any tables agree, whatever the options are: they list the same operations, and
every call among them meets a function with the results it takes. -/
theorem artifacts_agree (tables : List Table) (o : Options) (today : String) :
    Agreement tables o today where
  routed := routes_file tables o today
  sections := rfl
  documented t _ := Document.endpoints_operationSections t
  handled := Router.methods_file tables o today
  served := Service.methods_file tables o today
  serviceDeclared _ hs := mem_serviceHeads hs today
  accessDeclared := Access.heads_file tables o today
  routeServed _ hr := exists_handler hr
  handlerCalls _ hf _ hcall := exists_method_of_call hf hcall
  serviceCalls hstyle _ hf := exists_accessor_of_call hstyle hf
  primarySuffix := by
    intro t _ op hop hcreate hlist
    have hprimary := primary_of_mem_ofTable hop hcreate hlist
    exact ⟨Service.primaryKey t, mem_unique_of_primary hprimary, hprimary,
      name_accessor_of_primary hcreate hlist⟩

end GoScaffold
