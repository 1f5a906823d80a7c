import GoScaffold.Proofs.Artifact.Marked
import GoScaffold.Proofs.Artifact.References.Data

set_option autoImplicit false

/-! # What handlers and services refer to

The two files that name records of another package. That package is pasted as it is, and so is the mark
of a column that holds numbers; the one is asked to be a word and the other to refer to nothing. -/

namespace GoScaffold

open Go Text

variable {allowed : List String}

/-! ## Handlers -/

theorem isName_serviceType (o : Options) : IsName o.serviceType := by
  unfold Options.serviceType
  split
  · decide
  · exact isName_append (isName_upperCamel _) (by decide)

theorem runs_methodName (op : Operation) (t : Table) {a : Spot} (ha : a ≠ .between) :
    Runs allowed a (op.methodName t.modelName) a :=
  .name ha (isName_methodName op (isName_modelName t))

section

variable {package : String} (hword : ∀ c ∈ package.toList, isWordPart c = true)
  (hpackage : package ∈ allowed)

include hword hpackage

/-- A record type as other packages name it. -/
theorem runs_record (t : Table) : Runs allowed .between (package ++ "." ++ t.modelName) .inside :=
  .unselect (.append (.qualifier hword hpackage) (.name (by decide) (isName_modelName t)))

end

namespace Router

theorem runs_routeLine (t : Table) (op : Operation) : CodeRuns allowed (line (routeLine t op)) := by
  have hroute : Runs allowed .string (op.route t) .string := by
    have hname : Runs allowed .string t.routeName .string := by
      refine .kept fun c hc => ?_
      rcases Naming.mem_kebab hc with rfl | hname
      · decide
      · exact Runs.keeps_of_isNameChar (by decide) hname
    have hbase : Runs allowed .string ("/api/" ++ t.routeName) .string :=
      .append (.fixed (by decide)) hname
    cases op with
    | list | get => exact .append hbase (.fixed (by decide))
    | create | update | delete => exact hbase
  have hmethod : Runs allowed .string op.method .string := by
    cases op <;> exact .fixed (by decide)
  have hkey : Runs allowed .string (routeKey t op) .string :=
    .append (.append hmethod (.fixed (by decide))) hroute
  exact .line (.append (.append (.append (.append (.fixed (by decide)) hkey) (.fixed (by decide)))
    (runs_methodName op t (a := .selected) (by decide))) (.fixed (by decide)))

theorem runs_routerCode (hgin : "gin" ∈ allowed) (hstrings : "strings" ∈ allowed) (tables : List Table)
    (o : Options) : CodeRuns allowed (routerCode tables o) := by
  have hmap : Runs allowed .between "func (r *Router) Router() map[string]gin.HandlerFunc" .inside :=
    .naming ["gin"] (by decide) (by simpa using hgin)
  have hreturn : CodeRuns allowed (line "return map[string]gin.HandlerFunc\x7b") :=
    .naming ["gin"] (by decide) (by simpa using hgin)
  have hroutes : CodeRuns allowed (lines (tables.flatMap routeLines)) := by
    refine .lines fun text htext => ?_
    obtain ⟨t, -, htext⟩ := List.mem_flatMap.1 htext
    obtain ⟨op, -, rfl⟩ := List.mem_map.1 htext
    exact runs_routeLine t op
  refine .append (.append (.append (.append ?_ (.comment (.fixed (by decide)))) ?_)
    (.comment (.fixed (by decide)))) ?_
  · exact .declaration (.fixed (by decide)) (.line (.unselect (.append (b := .selected)
      (.fixed (by decide)) (.name (by decide) (isName_serviceType o)))))
  · exact .declaration hmap ((hreturn.append hroutes.indent).append (.fixed (by decide)))
  · exact .naming ["gin", "strings"] (by decide) (by simp [hgin, hstrings])

theorem runs_bindCode (hlog : "log" ∈ allowed) (hhttp : "http" ∈ allowed) {dataType : String}
    (htype : Runs allowed .between dataType .inside) : CodeRuns allowed (bindCode dataType) := by
  refine .append (.line (.append (.append (.fixed (by decide)) htype) (.fixed (by decide)))) ?_
  exact .naming ["log", "http"] (by decide) (by simp [hlog, hhttp])

theorem runs_callCode (hlog : "log" ∈ allowed) (hhttp : "http" ∈ allowed) (c : Convention) (t : Table)
    (op : Operation) {call : String} (hcall : Runs allowed .between call .inside) :
    CodeRuns allowed (callCode c t.modelName (resultNames op) call (doing op)) := by
  have hvalues : ∀ s ∈ resultNames op, Runs allowed .between s .inside := by
    cases op with
    | list => simpa [resultNames] using ⟨Runs.fixed (by decide), Runs.fixed (by decide)⟩
    | get => simpa [resultNames] using Runs.fixed (by decide)
    | create | update | delete => exact fun s hs => absurd hs List.not_mem_nil
  have hassign {values : List String} (h : ∀ s ∈ values, Runs allowed .between s .inside) :
      CodeRuns allowed (line (join ", " values ++ " := " ++ call)) :=
    .line (.append (.append (.list h) (.fixed (by decide))) hcall)
  cases c with
  | panicking =>
    unfold callCode
    cases hnames : resultNames op with
    | nil => exact .line hcall
    | cons value values =>
      rw [hnames] at hvalues
      exact hassign hvalues
  | returned =>
    have hdoing : Runs allowed .string (doing op) .string := by
      cases op <;> exact .fixed (by decide)
    have hprint : Runs allowed .between "log.Printf(\"__LINE__ " .string :=
      .naming ["log"] (by decide) (by simpa using hlog)
    have hfail : Runs allowed .between "fail(c, http.StatusInternalServerError, err.Error())" .inside :=
      .naming ["http"] (by decide) (by simpa using hhttp)
    refine .append (hassign (Convention.runs_concat hvalues (.fixed (by decide))))
      (.block (.fixed (by decide)) (.lines_cons (.line ?_) (.lines_cons (.line hfail)
        (.lines_cons (.line (.fixed (by decide))) .nil))))
    exact .append (.append (.append (.append hprint hdoing) (.fixed (by decide)))
      (.name (a := .string) (by decide) (isName_modelName t))) (.fixed (by decide))

theorem runs_handlerCode (hlog : "log" ∈ allowed) (hhttp : "http" ∈ allowed) (hgin : "gin" ∈ allowed)
    {package : String} (hword : ∀ c ∈ package.toList, isWordPart c = true) (hpackage : package ∈ allowed)
    (op : Operation) (t : Table) (c : Convention) :
    CodeRuns allowed (handlerCode op t.modelName package c) := by
  have hrecord := runs_record hword hpackage t
  have hpointer : Runs allowed .between ("*" ++ (package ++ "." ++ t.modelName)) .inside :=
    .append (.fixed (by decide)) hrecord
  have hcall (arguments : String) (h : Runs allowed .between arguments .inside) :
      CodeRuns allowed (callCode c t.modelName (resultNames op)
        (serviceCall op t.modelName arguments) (doing op)) :=
    runs_callCode hlog hhttp c t op (.append (.append (.append (.append (.fixed (by decide))
      (runs_methodName op t (a := .selected) (by decide))) (.fixed (by decide))) h)
      (.fixed (by decide)))
  have hhead : Runs allowed .between
      ("func (r *Router) " ++ op.methodName t.modelName ++ "(c *gin.Context)") .inside :=
    .append (.append (.fixed (by decide)) (runs_methodName op t (a := .inside) (by decide)))
      (.naming ["gin"] (by decide) (by simpa using hgin))
  refine .declaration hhead (.append ?_ ?_)
  · cases c with
    | panicking => exact .line (.fixed (by decide))
    | returned => exact .nil
  · have hbind := runs_bindCode hlog hhttp hpointer
    cases op with
    | list =>
      refine .append (.append (.append (.append (.append ?_ ?_) ?_) ?_) (hcall _ (.fixed (by decide)))) ?_
      · exact .block (.fixed (by decide)) (.lines_cons (.line hpointer) (.fixed (by decide)))
      · exact runs_bindCode hlog hhttp (.fixed (by decide))
      · exact .line (.unselect (.append (b := .selected) (.fixed (by decide))
          (.name (by decide) (isName_modelName t))))
      · exact .block (.fixed (by decide)) (.line (.append (.fixed (by decide))
          (.composite (a := .between) hrecord (.fixed (by decide)))))
      · exact .line (.append (.append (.fixed (by decide)) (.composite (a := .between)
          (.append (.append (.fixed (by decide)) hrecord) (.fixed (by decide))) (.fixed (by decide))))
          (.fixed (by decide)))
    | get => exact .append (.append hbind (hcall _ (.fixed (by decide)))) (.line (.fixed (by decide)))
    | delete => exact .append (.append hbind (hcall _ (.fixed (by decide)))) (.line (.fixed (by decide)))
    | create | update => exact .append (.append hbind (hcall _ (.fixed (by decide)))) (.line (.fixed (by decide)))

theorem runs_sharedCode (hhttp : "http" ∈ allowed) (hgin : "gin" ∈ allowed) :
    CodeRuns allowed sharedCode := by
  have hfixed {a b : Spot} {cs : List Char} (h : fits ["http", "gin"] a cs b = true) :
      Runs allowed a (String.ofList cs) b := .naming _ h (by simp [hhttp, hgin])
  refine .append (.append (.append (.append ?_ ?_) ?_) ?_) ?_
  · exact .declaration (hfixed (by decide)) (.lines_cons (.line (hfixed (by decide)))
      (.lines_cons (.line (hfixed (by decide))) .nil))
  · exact .declaration (hfixed (by decide)) (.lines_cons (.line (hfixed (by decide)))
      (.lines_cons (.line (hfixed (by decide))) (.lines_cons (.line (hfixed (by decide))) .nil)))
  · exact .declaration (hfixed (by decide)) (.lines_cons (.line (hfixed (by decide)))
      (.lines_cons (.line (hfixed (by decide))) .nil))
  · exact .declaration (hfixed (by decide)) (.line (.append (.append (b := .between) (hfixed (by decide))
      (.composite (a := .between) (hfixed (by decide)) (hfixed (by decide)))) (hfixed (by decide))))
  · exact .declaration (hfixed (by decide)) (.line (.append (.append (b := .between) (hfixed (by decide))
      (.composite (a := .between) (hfixed (by decide)) (hfixed (by decide)))) (hfixed (by decide))))

theorem runs_body {tables : List Table} {o : Options} (today : String)
    (hhttp : "http" ∈ allowed) (hgin : "gin" ∈ allowed) (hstrings : "strings" ∈ allowed)
    (hlog : o.convention = .panicking ∨ tables ≠ [] → "log" ∈ allowed)
    (hfmt : o.convention = .panicking → "fmt" ∈ allowed)
    (hword : tables ≠ [] → ∀ c ∈ o.package.toList, isWordPart c = true)
    (hpackage : tables ≠ [] → o.package ∈ allowed) :
    CodeRuns allowed (file tables o today).body := by
  refine .append (.append (.append ?_ ?_) (runs_routerCode hgin hstrings tables o)) ?_
  · exact runs_sharedCode hhttp hgin
  · cases hconvention : o.convention with
    | returned => exact .nil
    | panicking =>
      exact .naming ["gin", "log", "http", "fmt"] (by decide)
        (by simp [hgin, hlog (.inl hconvention), hhttp, hfmt hconvention])
  · refine .flatMap fun t ht => .append (runs_heading (isName_modelName t)) (.flatMap fun op _ => ?_)
    have hne := List.ne_nil_of_mem ht
    exact runs_handlerCode (hlog (.inr hne)) hhttp hgin (hword hne) (hpackage hne) op t o.convention

end Router

/-! ## Services -/

namespace Service

theorem runs_goLiteral {sql : String} (h : Runs allowed .between sql .inside) :
    Runs allowed .between (goLiteral sql) .inside := by
  unfold goLiteral
  split
  · exact .of_inside (.loosen (.quoted allowed _))
  · exact h

/-- The literal of a mark refers to nothing if it is quoted. -/
theorem runs_deleteLiteral {c : Column} {d : LogicalDelete}
    (h : c.category.isNumeric = true → Runs [] .between (d.deleteLiteral c) .inside) :
    Runs allowed .between (goLiteral (d.deleteLiteral c)) .inside := by
  cases hnumeric : c.category.isNumeric with
  | true => exact runs_goLiteral (.of_nil (h hnumeric))
  | false =>
    have htext := LogicalDelete.toList_literal hnumeric d.value
    have hbetween := between?_eq_some.2 htext
    rw [goLiteral, LogicalDelete.deleteLiteral, hbetween]
    exact .of_inside (.loosen (.quoted allowed _))

theorem runs_keyRecord {t : Table} {o : Options}
    (hrecord : Runs allowed .between (recordType t o) .inside) :
    Runs allowed .between (keyRecord t o) .inside := by
  refine .append (b := .between) (.fixed (by decide)) (.composite hrecord (.list fun s hs => ?_))
  obtain ⟨c, -, rfl⟩ := List.mem_map.1 hs
  exact .append (.append (.of_inside (.name (by decide) (isName_upperCamel c.name))) (.fixed (by decide)))
    c.runs_ofRecord.unselect

theorem runs_assignId? {c : Column} {code : Code} (h : assignId? c = some code) :
    CodeRuns allowed code := by
  have hassign {value : String} (hvalue : Runs allowed .between value .inside) :
      CodeRuns allowed (if c.isPointer then lines ["v := " ++ value, c.ofRecord ++ " = &v"]
        else line (c.ofRecord ++ " = " ++ value)) := by
    split
    · exact .lines_cons (.line (.append (b := .between) (.fixed (by decide)) hvalue))
        (.lines_cons (.line (.append c.runs_ofRecord (.fixed (by decide)))) .nil)
    · exact .line (.append (b := .between) (.append c.runs_ofRecord (.fixed (by decide))) hvalue)
  unfold assignId? at h
  dsimp only at h
  split at h
  · cases h
    exact hassign (.fixed (by decide))
  · cases h
    exact hassign (.fixed (by decide))
  · cases h

section

variable {t : Table} {o : Options} (hword : ∀ c ∈ o.package.toList, isWordPart c = true)
  (hpackage : o.package ∈ allowed)

include hword hpackage

theorem runs_recordType : Runs allowed .between (recordType t o) .inside := runs_record hword hpackage t

theorem runs_accessorCall (op : Operation) : Runs allowed .between (accessorCall t o op) .inside := by
  have harguments : Runs allowed .selected
      (if (accessor t op).isPaged then "(p.DB, s, page, size)" else "(p.DB, s)") .inside := by
    split <;> exact .fixed (by decide)
  exact .append (.append (.qualifier hword hpackage)
    (.name (by decide) (Accessor.isName_name _ (isName_modelName t)))) harguments

theorem runs_plainCreate : CodeRuns allowed (plainCreate t o) := by
  have hcall := runs_accessorCall (t := t) hword hpackage .create
  have hcode {code : Code} (h : (t.columns.find? (·.flags.autoIncrement)).bind assignId? = some code) :
      CodeRuns allowed code := by
    obtain ⟨c, -, hc⟩ := Option.bind_eq_some_iff.1 h
    exact runs_assignId? hc
  unfold plainCreate
  dsimp only
  split
  · next hassign =>
    exact .append (.append (.append (.line (.append (.fixed (by decide)) hcall)) (.fixed (by decide)))
      (hcode hassign)) (.fixed (by decide))
  · exact .lines_cons (.line (.append (.fixed (by decide)) hcall)) (.fixed (by decide))
  · next hassign => exact .append (.line (.append (.fixed (by decide)) hcall)) (hcode hassign)
  · exact .line hcall

theorem runs_plainBody (op : Operation) : CodeRuns allowed (plainBody t o op) := by
  have hcall := runs_accessorCall (t := t) hword hpackage
  have hexecute (op : Operation) : CodeRuns allowed (plainExecute t o op) := by
    unfold plainExecute
    cases o.convention with
    | returned => exact .lines_cons (.line (.append (.fixed (by decide)) (hcall op))) (.fixed (by decide))
    | panicking => exact .line (hcall op)
  cases op with
  | create => exact runs_plainCreate hword hpackage
  | list | get => exact .line (.append (.fixed (by decide)) (hcall _))
  | update | delete => exact hexecute _

theorem runs_ormDeleteCall
    (hmark : ∀ c d, markColumn? t o.logicalDelete = some (c, d) → c.category.isNumeric = true →
      Runs [] .between (d.deleteLiteral c) .inside) :
    Runs allowed .between (ormDeleteCall t o) .inside := by
  have hrecord := runs_recordType (t := t) hword hpackage
  have hkey := runs_keyRecord hrecord
  unfold ormDeleteCall
  split
  · next c d hmarked =>
    exact .append (.append (.append (.append (.append (.append (.append (.append (.fixed (by decide))
      (.composite (a := .between) hrecord (.fixed (by decide)))) (.fixed (by decide))) hkey)
      (.fixed (by decide))) (.quote _ _)) (.fixed (by decide)))
      (runs_deleteLiteral (hmark c d hmarked))) (.fixed (by decide))
  · exact .append (.append (.append (.append (.fixed (by decide)) hkey) (.fixed (by decide)))
      (.composite (a := .between) hrecord (.fixed (by decide)))) (.fixed (by decide))

theorem runs_ormBody (op : Operation) (hget : op = .get → "errors" ∈ allowed ∧ "gorm" ∈ allowed)
    (hdelete : op = .delete → ∀ c d, markColumn? t o.logicalDelete = some (c, d) →
      c.category.isNumeric = true → Runs [] .between (d.deleteLiteral c) .inside) :
    CodeRuns allowed (ormBody t o op) := by
  have hrecord := runs_recordType (t := t) hword hpackage
  have hnone : ∀ s ∈ ([] : List String), Runs allowed .between s .inside :=
    fun s hs => absurd hs List.not_mem_nil
  have hone {s : String} (h : Runs allowed .between s .inside) :
      ∀ u ∈ [s], Runs allowed .between u .inside := by simpa using h
  have htwo {s u : String} (hs : Runs allowed .between s .inside)
      (hu : Runs allowed .between u .inside) : ∀ v ∈ [s, u], Runs allowed .between v .inside := by
    simpa using ⟨hs, hu⟩
  have hempty : Runs allowed .between (composite (recordType t o) "") .inside :=
    .composite hrecord (.fixed (by decide))
  unfold ormBody
  cases op with
  | create => exact o.convention.runs_forward hnone (.fixed (by decide))
  | update => exact o.convention.runs_forward hnone (.fixed (by decide))
  | list =>
    exact .append (.append (.append (.append (.append (.append
      (.block (.fixed (by decide)) (.fixed (by decide)))
      (.block (.fixed (by decide)) (.fixed (by decide)))) (.line (.fixed (by decide))))
      (o.convention.runs_guard (htwo (.fixed (by decide)) (.fixed (by decide)))
        (.append (.append (.fixed (by decide)) hempty) (.fixed (by decide)))))
      (.line (.append (.fixed (by decide)) hrecord)))
      (o.convention.runs_guard (htwo (.fixed (by decide)) (.fixed (by decide))) (.fixed (by decide))))
      (o.convention.runs_succeed (htwo (.fixed (by decide)) (.fixed (by decide))))
  | get =>
    have htest : Runs allowed .between "if errors.Is(err, gorm.ErrRecordNotFound)" .inside :=
      .naming ["errors", "gorm"] (by decide) (by simpa using hget rfl)
    exact .append (.append (.append (.lines_cons (.line (.append (.fixed (by decide)) hempty))
      (.lines_cons (.line (.append (.append (.fixed (by decide)) (runs_keyRecord hrecord))
        (.fixed (by decide)))) .nil))
      (.block htest (o.convention.runs_succeed (hone (.fixed (by decide))))))
      (o.convention.runs_check (hone (.fixed (by decide))))) (o.convention.runs_succeed (hone (.fixed (by decide))))
  | delete =>
    exact o.convention.runs_forward hnone (runs_ormDeleteCall hword hpackage (hdelete rfl))

theorem runs_methodHead (op : Operation) :
    Runs allowed .between ("func (p *" ++ o.serviceType ++ ") " ++ op.methodName t.modelName ++ "("
      ++ parameters t o op ++ ")" ++ o.convention.results (op.resultTypes (recordType t o))) .inside := by
  have hrecord := runs_recordType (t := t) hword hpackage
  have htypes : ∀ s ∈ op.resultTypes (recordType t o), Runs allowed .between s .inside := by
    cases op with
    | list =>
      have hslice : Runs allowed .between ("[]*" ++ recordType t o) .inside :=
        .append (.fixed (by decide)) hrecord
      simpa [Operation.resultTypes] using ⟨Runs.fixed (by decide), hslice⟩
    | get =>
      have hpointer : Runs allowed .between ("*" ++ recordType t o) .inside :=
        .append (.fixed (by decide)) hrecord
      simpa [Operation.resultTypes] using hpointer
    | create | update | delete => exact fun s hs => absurd hs List.not_mem_nil
  have hparameters : Runs allowed .between (parameters t o op) .inside := by
    have hpointer : Runs allowed .between ("s *" ++ recordType t o) .inside :=
      .append (.fixed (by decide)) hrecord
    cases op with
    | list => exact .append hpointer (.fixed (by decide))
    | create | update | get | delete => exact .append hpointer .empty
  exact .append (.append (.append (.append (.append (.append (.append (.fixed (by decide))
    (.name (a := .inside) (by decide) (isName_serviceType o))) (.fixed (by decide)))
    (runs_methodName op t (a := .inside) (by decide))) (.fixed (by decide))) hparameters)
    (.fixed (by decide))) (o.convention.runs_results htypes)

end

theorem runs_preamble {o : Options} (hsql : o.style = .plain → "sql" ∈ allowed)
    (hgorm : o.style = .orm → "gorm" ∈ allowed) : CodeRuns allowed (preamble o) := by
  have hservice (a : Spot) (ha : a ≠ .between) : Runs allowed a o.serviceType a :=
    .name ha (isName_serviceType o)
  have hstruct : Runs allowed .between ("type " ++ o.serviceType ++ " struct") .inside :=
    .append (.append (.fixed (by decide)) (hservice .inside (by decide))) (.fixed (by decide))
  have hcomment {rest : String} (h : Runs allowed .comment rest .comment) :
      CodeRuns allowed (line ("// " ++ o.serviceType ++ rest)) :=
    .comment (.append (.append (.fixed (by decide)) (hservice .comment (by decide))) h)
  unfold preamble
  cases hstyle : o.style with
  | plain =>
    exact .append (hcomment (.fixed (by decide))) (.declaration hstruct
      (.line (.naming ["sql"] (by decide) (by simpa using hsql hstyle))))
  | orm =>
    refine .append (.append (hcomment (.fixed (by decide))) (.declaration hstruct
      (.line (.naming ["gorm"] (by decide) (by simpa using hgorm hstyle))))) ?_
    cases o.convention with
    | panicking => exact Convention.runs_assertHelper
    | returned => exact .nil

theorem runs_body {tables : List Table} {o : Options} (today : String)
    (hword : tables ≠ [] → ∀ c ∈ o.package.toList, isWordPart c = true)
    (hpackage : tables ≠ [] → o.package ∈ allowed) (hsql : o.style = .plain → "sql" ∈ allowed)
    (hgorm : o.style = .orm → "gorm" ∈ allowed)
    (herrors : o.style = .orm → tables.any (·.keys.primary.isSome) = true → "errors" ∈ allowed)
    (hmarks : o.style = .orm → ∀ t ∈ tables, .delete ∈ Operation.ofTable t →
      ∀ c d, markColumn? t o.logicalDelete = some (c, d) → c.category.isNumeric = true →
        Runs [] .between (d.deleteLiteral c) .inside) :
    CodeRuns allowed (file tables o today).body := by
  refine .append (runs_preamble hsql hgorm) (.flatMap fun t ht =>
    .append (runs_heading (isName_modelName t)) (.flatMap fun op hop => ?_))
  have hne := List.ne_nil_of_mem ht
  refine .declaration (runs_methodHead (hword hne) (hpackage hne) op) ?_
  cases hstyle : o.style with
  | plain => exact runs_plainBody (hword hne) (hpackage hne) op
  | orm =>
    refine runs_ormBody (hword hne) (hpackage hne) op (fun hget => ?_) fun hdelete => ?_
    · subst hget
      have hprimary : t.keys.primary.isSome = true := by
        by_contra hnone
        rw [Operation.ofTable, if_neg hnone] at hop
        simp at hop
      exact ⟨herrors hstyle (List.any_eq_true.2 ⟨t, ht, hprimary⟩), hgorm hstyle⟩
    · subst hdelete
      exact hmarks hstyle t ht hop

end Service

end GoScaffold
