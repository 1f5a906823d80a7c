import GoScaffold.Proofs.Artifact.Declared
import GoScaffold.Proofs.Artifact.Settings
import GoScaffold.Proofs.Go.References

set_option autoImplicit false

/-! # What records and data access refer to

The two files of a package, followed from part to part. Names that are made from tables and columns,
quoted texts and comments refer to no package. Of the fixed parts some refer to the packages that a file
imports always, and some to `time`, where columns hold times or are rounded. -/

namespace GoScaffold

open Go Text

variable {allowed : List String}

/-! ## Reporting failures -/

namespace Convention

variable {values : List String}

theorem runs_returning (h : ∀ s ∈ values, Runs allowed .between s .inside) :
    CodeRuns allowed (returning values) := by
  cases values with
  | nil => exact .fixed (by decide)
  | cons value values => exact .line (.append (.fixed (by decide)) (.list h))

/-- The values of a function that fails, with the error behind them. -/
theorem runs_concat {last : String} (h : ∀ s ∈ values, Runs allowed .between s .inside)
    (hlast : Runs allowed .between last .inside) :
    ∀ s ∈ values ++ [last], Runs allowed .between s .inside :=
  List.forall_mem_append.2 ⟨h, by simpa using hlast⟩

theorem runs_check (c : Convention) (h : ∀ s ∈ values, Runs allowed .between s .inside) :
    CodeRuns allowed (c.check values) := by
  cases c with
  | panicking => exact .line (.fixed (by decide))
  | returned => exact .block (.fixed (by decide)) (runs_returning (runs_concat h (.fixed (by decide))))

theorem runs_fail (c : Convention) (h : ∀ s ∈ values, Runs allowed .between s .inside) {error : String}
    (herror : Runs allowed .between error .inside) : CodeRuns allowed (c.fail values error) := by
  cases c with
  | panicking =>
    exact .line (.append (.append (.fixed (by decide)) herror) (.fixed (by decide)))
  | returned => exact runs_returning (runs_concat h herror)

theorem runs_guard (c : Convention) (h : ∀ s ∈ values, Runs allowed .between s .inside) {expr : String}
    (hexpr : Runs allowed .between expr .inside) : CodeRuns allowed (c.guard values expr) := by
  cases c with
  | panicking => exact .line (.append (.append (.fixed (by decide)) hexpr) (.fixed (by decide)))
  | returned =>
    exact .block (.append (.append (.fixed (by decide)) hexpr) (.fixed (by decide)))
      (runs_returning (runs_concat h (.fixed (by decide))))

theorem runs_forward (c : Convention) (h : ∀ s ∈ values, Runs allowed .between s .inside)
    {call : String} (hcall : Runs allowed .between call .inside) :
    CodeRuns allowed (c.forward values call) := by
  cases c with
  | returned => exact .line (.append (.fixed (by decide)) hcall)
  | panicking =>
    cases values with
    | nil => exact .line (.append (.append (.fixed (by decide)) hcall) (.fixed (by decide)))
    | cons value values =>
      exact ((CodeRuns.line (((Runs.list h).append (.fixed (by decide))).append hcall)).append
        (.fixed (by decide))).append (runs_returning h)

theorem runs_succeed (c : Convention) (h : ∀ s ∈ values, Runs allowed .between s .inside) :
    CodeRuns allowed (c.succeed values) := by
  cases c with
  | panicking => exact runs_returning h
  | returned => exact runs_returning (runs_concat h (.fixed (by decide)))

theorem runs_assertHelper : CodeRuns allowed assertHelper := .fixed (by decide)

theorem runs_results (c : Convention) (h : ∀ s ∈ values, Runs allowed .between s .inside) :
    Runs allowed .inside (c.results values) .inside := by
  have htypes : ∀ s ∈ c.resultTypes values, Runs allowed .between s .inside := by
    cases c with
    | panicking => exact h
    | returned => exact runs_concat h (.fixed (by decide))
  unfold results
  generalize c.resultTypes values = types at htypes
  match types with
  | [] => exact .empty
  | [type] => exact .append (.fixed (by decide)) (htypes type (List.mem_singleton_self type))
  | _ :: _ :: _ =>
    exact .append (.append (.fixed (by decide)) (.list htypes)) (.fixed (by decide))

end Convention

/-! ## Names and fields -/

theorem Go.Runs.composite {type inner : String} {a : Spot} (htype : Runs allowed a type .inside)
    (hinner : Runs allowed .between inner .inside) : Runs allowed a (composite type inner) .inside :=
  .append (.append (.append htype (.fixed (by decide))) hinner) (.fixed (by decide))

theorem runs_heading {title : String} (h : IsName title) : CodeRuns allowed (heading title) :=
  .append (.comment (.append (.append (.fixed (by decide)) (.name (a := .comment) (by decide) h))
    (.fixed (by decide)))) (.fixed (by decide))

theorem runs_model (t : Table) : Runs allowed .inside t.modelName .inside :=
  .name (by decide) (isName_modelName t)

theorem runs_between_model (t : Table) : Runs allowed .between t.modelName .inside :=
  .of_inside (runs_model t)

namespace Column

theorem runs_ofRecord (c : Column) : Runs allowed .between c.ofRecord .selected :=
  .append (.fixed (by decide)) (.name (by decide) (isName_upperCamel c.name))

theorem runs_goType {c : Column} (h : c.isTemporal = true → "time" ∈ allowed) :
    Runs allowed .between c.goType .inside := by
  have hcategory : Runs allowed .between c.category.goType .inside := by
    cases hc : c.category with
    | temporal =>
      have htime := h (by rw [isTemporal, hc]; rfl)
      exact .naming ["time"] (by decide) (by simpa using htime)
    | bool | int32 | int64 | float | text | other => exact .fixed (by decide)
  rw [goType, nullable]
  split
  · exact .append (.fixed (by decide)) hcategory
  · exact hcategory

theorem runs_suppliedTest (c : Column) :
    Runs allowed .between (c.suppliedTest c.ofRecord) .inside := by
  have hfield : Runs allowed .between c.ofRecord .selected := c.runs_ofRecord
  unfold suppliedTest
  split
  · exact .append hfield (.fixed (by decide))
  · cases c.category with
    | bool => exact hfield.unselect
    | temporal => exact .append (.append (.fixed (by decide)) hfield) (.fixed (by decide))
    | int32 | int64 | float | text | other => exact .append hfield (.fixed (by decide))

end Column

/-! ## Records -/

theorem oneLine_keeps (s : String) : ∀ c ∈ (oneLine s).toList, Spot.comment.keeps c = true := by
  have hline : ∀ c ∈ (oneLine s).toList, (c == '\n') = false := by
    refine (forall_join_iff (by decide) _).2 fun word hword c hc => ?_
    obtain ⟨piece, hpiece, rfl⟩ := List.mem_map.1 hword
    rw [String.toList_ofList] at hc
    have hblank := not_of_mem_splitWhere (List.mem_filter.1 hpiece).1 hc
    rw [beq_eq_false_iff_ne]
    rintro rfl
    exact absurd hblank (by decide)
  exact fun c hc => by simpa [Spot.keeps] using hline c hc

namespace Record

variable {c : Column} {isKey : Bool} {style : Style}

/-- Backticks come into a tag with the name alone. -/
theorem tick_not_mem_fieldTag (h : style = .orm → '`' ∉ c.name.toList) :
    '`' ∉ (fieldTag c isKey style).toList := by
  have hwire : '`' ∉ c.wireName.toList := fun hmem => absurd (spoilsTag_wireName _ hmem) (by decide)
  cases style with
  | plain => simp [fieldTag, hwire]
  | orm =>
    have hsettings : ∀ s ∈ gormSettings c isKey, ∀ ch ∈ s.toList, (ch == '`') = false := by
      rw [gormSettings_eq, forall_settings_iff (by decide)]
      refine ⟨fun ch hch => beq_eq_false_iff_ne.2 ?_, fun d hd ch hch => ?_⟩
      · rintro rfl
        exact h rfl hch
      · obtain ⟨d, -, rfl⟩ := Option.map_eq_some_iff.1 hd
        rw [unticked, toList_onChars, List.mem_filter] at hch
        simpa using hch.2
    have hvalue : '`' ∉ (join ";" (gormSettings c isKey)).toList := by
      intro hmem
      have := (forall_join_iff (by decide) _).2 hsettings _ hmem
      simp at this
    simp [fieldTag, hwire, hvalue]

theorem runs_fieldLine (htag : style = .orm → '`' ∉ c.name.toList)
    (htime : c.isTemporal = true → "time" ∈ allowed) :
    CodeRuns allowed (line (fieldLine c isKey style)) := by
  have hfield : Runs allowed .between
      (c.fieldName ++ " " ++ c.goType ++ " `" ++ fieldTag c isKey style ++ "`") .between := by
    have hname : Runs allowed .between c.fieldName .inside :=
      .of_inside (.name (by decide) (isName_upperCamel c.name))
    have htagged : Runs allowed .raw (fieldTag c isKey style) .raw := by
      refine .kept fun ch hch => bne_iff_ne.2 ?_
      rintro rfl
      exact tick_not_mem_fieldTag htag hch
    exact ((((hname.append (.fixed (by decide))).append (Column.runs_goType htime)).append
      (.fixed (by decide))).append htagged).append (.fixed (by decide))
  unfold fieldLine
  cases c.comment with
  | none => exact .line (.append hfield.loosen .empty)
  | some comment =>
    exact .comment (.append hfield (.append (.fixed (by decide)) (.kept (oneLine_keeps comment))))

theorem runs_structComment {t : Table} (h : t.comment = none → '\n' ∉ t.name.toList) :
    CodeRuns allowed (line (structComment t)) := by
  have hmodel : Runs allowed .comment t.modelName .comment := .name (by decide) (isName_modelName t)
  unfold structComment
  cases hcomment : t.comment with
  | some comment =>
    exact .comment (.append (.append (.append (.fixed (by decide)) hmodel) (.fixed (by decide)))
      (.kept (oneLine_keeps comment)))
  | none =>
    have hname : Runs allowed .comment t.name .comment := by
      refine .kept fun ch hch => bne_iff_ne.2 ?_
      rintro rfl
      exact h hcomment hch
    exact .comment (.append (.append (.append (.append (.fixed (by decide)) hmodel)
      (.fixed (by decide))) hname) (.fixed (by decide)))

theorem runs_tableNameCode (t : Table) : CodeRuns allowed (tableNameCode t) :=
  .declaration (.append (.append (.fixed (by decide)) (runs_model t)) (.fixed (by decide)))
    (.line (.append (.fixed (by decide)) (.loosen (.quote _ _))))

theorem runs_printFormat (t : Table) : Runs allowed .string (printFormat t) .string := by
  have hname {s : String} (h : IsName s) : Runs allowed .string s .string := .name (by decide) h
  have hverb (c : Column) : Runs allowed .string c.verb .string := by
    unfold Column.verb
    split
    · exact .fixed (by decide)
    · cases c.category <;> exact .fixed (by decide)
  refine .append (.append (.append (hname (isName_modelName t)) (.fixed (by decide)))
    (.join (a := .string) .empty ?_ (.fixed (by decide)))) (.fixed (by decide))
  intro s hs
  obtain ⟨c, -, rfl⟩ := List.mem_map.1 hs
  exact .append (.append (hname (isName_upperCamel c.name)) (.fixed (by decide))) (hverb c)

theorem runs_stringCode (t : Table) (hfmt : "fmt" ∈ allowed) : CodeRuns allowed (stringCode t) := by
  have hprinted : ∀ s ∈ t.columns.map (fun c => ", " ++ c.printed c.ofRecord),
      Runs allowed .inside s .inside := by
    intro s hs
    obtain ⟨c, -, rfl⟩ := List.mem_map.1 hs
    have hfield : Runs allowed .between c.ofRecord .selected := c.runs_ofRecord
    refine .append (b := .between) (.fixed (by decide)) ?_
    unfold Column.printed
    split
    · exact .append (.append (.fixed (by decide)) hfield) (.fixed (by decide))
    · exact hfield.unselect
  have hcall : Runs allowed .between "return fmt.Sprintf(\"" .string :=
    .naming ["fmt"] (by decide) (by simpa using hfmt)
  exact .declaration (.append (.append (.fixed (by decide)) (runs_model t)) (.fixed (by decide)))
    (.append (.block (.fixed (by decide)) (.fixed (by decide)))
      (.line (.append (.append (.append (.append hcall (runs_printFormat t)) (.fixed (by decide)))
        (.concat hprinted)) (.fixed (by decide)))))

theorem runs_tableCode {t : Table} (hname : t.comment = none → '\n' ∉ t.name.toList)
    (htags : style = .orm → ∀ c ∈ t.columns, '`' ∉ c.name.toList) (hfmt : "fmt" ∈ allowed)
    (htime : t.hasTimes = true → "time" ∈ allowed) : CodeRuns allowed (tableCode t style) := by
  have hfields : ∀ text ∈ t.columns.map (fun c => fieldLine c (isKeyColumn t c) style),
      CodeRuns allowed (line text) := by
    intro text htext
    obtain ⟨c, hc, rfl⟩ := List.mem_map.1 htext
    exact runs_fieldLine (fun hstyle => htags hstyle c hc)
      fun htemporal => htime (List.any_eq_true.2 ⟨c, hc, htemporal⟩)
  have hstruct : CodeRuns allowed (structCode t style) :=
    (runs_structComment hname).append (.declaration
      (.append (.append (.fixed (by decide)) (runs_model t)) (.fixed (by decide))) (.lines hfields))
  refine .append (.append (.append (runs_heading (isName_modelName t)) hstruct) ?_)
    (runs_stringCode t hfmt)
  cases style with
  | plain => exact .nil
  | orm => exact runs_tableNameCode t

theorem runs_body {tables : List Table} {o : Options} (today : String)
    (hnames : ∀ t ∈ tables, t.comment = none → '\n' ∉ t.name.toList)
    (htags : o.style = .orm → ∀ t ∈ tables, ∀ c ∈ t.columns, '`' ∉ c.name.toList)
    (hfmt : tables.isEmpty = false → "fmt" ∈ allowed)
    (htime : tables.any (·.hasTimes) = true → "time" ∈ allowed) :
    CodeRuns allowed (file tables o today).body := by
  refine .append (.flatMap fun t ht => ?_) ?_
  · exact runs_tableCode (hnames t ht) (fun hstyle => htags hstyle t ht)
      (hfmt (List.isEmpty_eq_false_iff.2 (List.ne_nil_of_mem ht)))
      fun htimes => htime (List.any_eq_true.2 ⟨t, ht, htimes⟩)
  · split
    · exact .fixed (by decide)
    · exact .nil

end Record

/-! ## Data access -/

theorem isName_lowerFirst {s : String} (h : IsName s) : IsName (Naming.lowerFirst s) := by
  intro c hc
  rw [Naming.lowerFirst, toList_onChars] at hc
  cases hs : s.toList with
  | nil => rw [hs] at hc; cases hc
  | cons d ds =>
    rw [hs] at hc
    rcases List.mem_append.1 hc with hc | hc
    · exact isNameChar_toLowerCase (h d (by rw [hs]; exact List.mem_cons_self)) hc
    · exact h c (by rw [hs]; exact List.mem_cons_of_mem _ hc)

theorem runs_columnsConstant (t : Table) :
    Runs allowed .inside (columnsConstant t.modelName) .inside :=
  .name (by decide) (isName_append (isName_lowerFirst (isName_modelName t)) (by decide))

theorem runs_toString (n : Nat) : Runs allowed .between (toString n) .inside := by
  refine .of_inside (.name (by decide) fun c hc => isNameChar_of_isAlphanum ?_)
  rw [Nat.toString_eq_repr, Nat.repr, String.toList_ofList] at hc
  have hdigit : c.isDigit = true := Nat.isDigit_of_mem_toDigits (by decide) (by decide) hc
  simp [Char.isAlphanum, hdigit]

theorem QueryPart.runs_text (hstrings : "strings" ∈ allowed) (t : Table) (part : QueryPart) :
    Runs allowed .between (part.text t.modelName) .inside := by
  cases part with
  | fixed sql => exact .of_inside (.loosen (.quote _ _))
  | allColumns => exact .of_inside (runs_columnsConstant t)
  | gathered g =>
    have hvariable : Runs allowed .between g.variable .inside := by
      cases g <;> exact .fixed (by decide)
    have hjoin : Runs allowed .between "strings.Join(" .between :=
      .naming ["strings"] (by decide) (by simpa using hstrings)
    exact .append (.append hjoin hvariable) (.fixed (by decide))
  | placeholders =>
    have hcall : Runs allowed .between "placeholders(len(columns))" .inside := .fixed (by decide)
    exact hcall
  | condition =>
    have hvariable : Runs allowed .between "where" .inside := .fixed (by decide)
    exact hvariable
  | ordering =>
    have hvariable : Runs allowed .between "order" .inside := .fixed (by decide)
    exact hvariable

theorem runs_queryParts (hstrings : "strings" ∈ allowed) (t : Table) {sep : String}
    (hsep : Runs allowed .inside sep .between) (parts : List QueryPart) :
    Runs allowed .between (join sep (parts.map (QueryPart.text t.modelName))) .inside := by
  refine .join (.loosen .empty) (fun s hs => ?_) hsep
  obtain ⟨part, -, rfl⟩ := List.mem_map.1 hs
  exact part.runs_text hstrings t

namespace Bound

theorem runs_text {b : Bound} (h : b.rounding.isSome = true → "time" ∈ allowed) :
    Runs allowed .between b.text .inside := by
  have hfield : Runs allowed .between b.column.ofRecord .selected := b.column.runs_ofRecord
  unfold text
  cases hrounding : b.rounding with
  | none => exact hfield.unselect
  | some unit =>
    have hunit : Runs allowed .between unit.duration .inside := by
      have htime := h (by rw [hrounding]; rfl)
      cases unit <;> exact .naming ["time"] (by decide) (by simpa using htime)
    dsimp only
    split
    · exact .append (.append (.append (.append (.fixed (by decide)) hfield) (.fixed (by decide))) hunit)
        (.fixed (by decide))
    · exact .append (.append (.append hfield (.fixed (by decide))) hunit) (.fixed (by decide))

theorem runs_arguments {bs : List Bound} (h : ∀ b ∈ bs, b.rounding.isSome = true → "time" ∈ allowed) :
    Runs allowed .between (arguments bs) .inside := by
  refine .list fun s hs => ?_
  obtain ⟨b, hb, rfl⟩ := List.mem_map.1 hs
  exact runs_text (h b hb)

end Bound

/-- The values that a step of a function binds. -/
def Step.bounds : Step → List Bound
  | .startValues values | .addValues values | .executeWith values | .fetch values => values
  | .supply s => [s.value]
  | .supplyFromRecord supplies => supplies.map (·.value)
  | _ => []

theorem Supply.runs_code {s : Supply} (h : s.value.rounding.isSome = true → "time" ∈ allowed) :
    CodeRuns allowed s.code := by
  have hvariable (a : Spot) (ha : a = .between) : Runs allowed a s.into.variable .inside := by
    subst ha
    cases s.into <;> exact .fixed (by decide)
  refine .block (.append (.fixed (by decide)) s.value.column.runs_suppliedTest) (.lines fun text htext => ?_)
  rcases List.mem_pair.1 htext with rfl | rfl
  · exact .line (.append (.append (.append (.append (.append (hvariable _ rfl) (.fixed (by decide)))
      (hvariable _ rfl)) (.fixed (by decide))) (.quote _ _)) (.fixed (by decide)))
  · exact .line (.append (.append (.fixed (by decide)) (Bound.runs_text h)) (.fixed (by decide)))

theorem Step.runs_code (hstrings : "strings" ∈ allowed) (herrors : "errors" ∈ allowed)
    (hsql : "sql" ∈ allowed) (t : Table) (c : Convention) {zeros : List String}
    (hzeros : ∀ s ∈ zeros, Runs allowed .between s .inside) {s : Step}
    (h : ∀ b ∈ s.bounds, b.rounding.isSome = true → "time" ∈ allowed) :
    CodeRuns allowed (s.code t.modelName c zeros) := by
  have hrows : ∀ s ∈ ["rows"], Runs allowed .between s .inside := by
    simpa using Runs.fixed (by decide)
  cases s with
  | rejectNil => exact .block (.fixed (by decide)) (c.runs_fail hzeros (.fixed (by decide)))
  | startColumns columns =>
    refine .line (.append (.fixed (by decide)) (.composite (a := .between) (.fixed (by decide))
      (.list fun s hs => ?_)))
    obtain ⟨k, -, rfl⟩ := List.mem_map.1 hs
    exact .of_inside (.loosen (.quote _ _))
  | startValues values =>
    exact .line (.append (.fixed (by decide)) (.composite (a := .between) (.fixed (by decide))
      (Bound.runs_arguments h)))
  | startGathering g room =>
    have hvariable : Runs allowed .between g.variable .inside := by
      cases g <;> exact .fixed (by decide)
    exact .line (.append (.append (.append hvariable (.fixed (by decide))) (runs_toString room))
      (.fixed (by decide)))
  | startNoValues room =>
    exact .line (.append (.append (.fixed (by decide)) (runs_toString room)) (.fixed (by decide)))
  | supply supply => exact Supply.runs_code (h _ (List.mem_singleton_self _))
  | supplyFromRecord supplies =>
    exact .block (.fixed (by decide))
      (.flatMap fun supply hsupply => Supply.runs_code (h _ (List.mem_map_of_mem hsupply)))
  | rejectNoSets => exact .block (.fixed (by decide)) (c.runs_fail hzeros (.fixed (by decide)))
  | addValues values =>
    exact .line (.append (.append (.fixed (by decide)) (Bound.runs_arguments h)) (.fixed (by decide)))
  | query parts =>
    exact .line (.append (.fixed (by decide)) (runs_queryParts hstrings t (.fixed (by decide)) parts))
  | whereFixed clause => exact .line (.append (.fixed (by decide)) (.loosen (.quote _ _)))
  | whereGathered =>
    have hjoin : Runs allowed .between "where = \" where \" + strings.Join(conditions, \" and \")" .inside :=
      .naming ["strings"] (by decide) (by simpa using hstrings)
    exact .append (.line (.fixed (by decide))) (.block (.fixed (by decide)) (.line hjoin))
  | insert =>
    exact ((CodeRuns.line (.fixed (by decide))).append (c.runs_check hzeros)).append
      (c.runs_forward (by simpa using Runs.fixed (by decide)) (.fixed (by decide)))
  | execute => exact c.runs_forward hrows (.fixed (by decide))
  | executeWith values =>
    exact c.runs_forward hrows
      (.append (.append (.fixed (by decide)) (Bound.runs_arguments h)) (.fixed (by decide)))
  | fetch values =>
    have hread : Runs allowed .between "if errors.Is(err, sql.ErrNoRows)" .inside :=
      .naming ["errors", "sql"] (by decide) (by simp [herrors, hsql])
    exact (((CodeRuns.line (.append (.append (.append (.append (.fixed (by decide)) (runs_model t))
      (.fixed (by decide))) (Bound.runs_arguments h)) (.fixed (by decide)))).append
      (.block hread (c.runs_succeed (by simpa using Runs.fixed (by decide))))).append
      (c.runs_check hzeros)).append (c.runs_succeed (by simpa using Runs.fixed (by decide)))
  | fetchPage order =>
    refine c.runs_forward ?_ (.append (.append (.append (.append (.fixed (by decide)) (runs_model t))
      (.fixed (by decide))) (.quote _ _)) (.fixed (by decide)))
    simpa using ⟨Runs.fixed (by decide), Runs.fixed (by decide)⟩

namespace Accessor

/-- The columns whose fields a function may bind. -/
def boundColumns (t : Table) : Accessor → List Column
  | .create =>
    (insertable t).filter (fun c => !c.hasLiteralDefault) ++ (insertable t).filter (·.hasLiteralDefault)
  | .update key => updatable t key ++ key
  | .list _ => t.columns
  | .get key | .listBy key _ | .delete key | .mark key _ _ | .restore key _ _ => key

/-- A function binds values of columns, rounded as the options say. -/
theorem bounds_steps (t : Table) (o : Options) (a : Accessor) :
    (a.steps t o).flatMap Step.bounds = (a.boundColumns t).map (Bound.ofColumn o) := by
  have hsupplies (g : Gathered) (item : Column → String) (columns : List Column) :
      (supplies o g item columns).map (·.value) = columns.map (Bound.ofColumn o) := by
    rw [supplies, List.map_map]
    rfl
  have hsupply (g : Gathered) (item : Column → String) (columns : List Column) :
      ((supplies o g item columns).map Step.supply).flatMap Step.bounds
        = columns.map (Bound.ofColumn o) := by
    rw [← hsupplies g item, List.flatMap_map, List.map_eq_flatMap]
    rfl
  cases a <;>
    simp only [steps, executeByKey, List.partition_eq_filter_filter, List.flatMap_append,
      List.flatMap_cons, List.flatMap_nil, hsupply, Step.bounds, hsupplies, List.append_nil,
      List.nil_append, ← List.map_append] <;>
    rfl

theorem exists_of_mem_bounds {t : Table} {o : Options} {a : Accessor} {s : Step}
    (hs : s ∈ a.steps t o) {b : Bound} (hb : b ∈ s.bounds) :
    ∃ c ∈ a.boundColumns t, b = Bound.ofColumn o c := by
  have hmem : b ∈ (a.boundColumns t).map (Bound.ofColumn o) := by
    rw [← bounds_steps]
    exact List.mem_flatMap.2 ⟨s, hs, hb⟩
  obtain ⟨c, hc, rfl⟩ := List.mem_map.1 hmem
  exact ⟨c, hc, rfl⟩

/-- So no value is rounded unless the options round. -/
theorem rounding_of_mem_bounds {t : Table} {o : Options} {a : Accessor} {s : Step}
    (hs : s ∈ a.steps t o) {b : Bound} (hb : b ∈ s.bounds) (h : b.rounding.isSome = true) :
    o.rounding.isSome = true := by
  obtain ⟨c, -, rfl⟩ := exists_of_mem_bounds hs hb
  rw [Bound.ofColumn] at h
  split at h
  · exact h
  · cases h

theorem runs_summary (t : Table) (a : Accessor) :
    Runs allowed .comment (a.summary t.modelName) .comment := by
  have hname {s : String} (h : IsName s) : Runs allowed .comment s .comment := .name (by decide) h
  have hmodel := hname (isName_modelName t)
  have hown := hname (a.isName_name (isName_modelName t))
  have hgroup (key : List Column) := hname (isName_groupSuffix key)
  unfold summary
  refine .append hown ?_
  cases a with
  | create => exact .append (.append (.fixed (by decide)) hmodel) (.fixed (by decide))
  | list order => exact .append (.append (.fixed (by decide)) hmodel) (.fixed (by decide))
  | update key | get key | listBy key order | delete key | mark key c literal | restore key c literal =>
    exact .append (.append (.append (.append (.fixed (by decide)) hmodel) (.fixed (by decide)))
      (hgroup key)) (.fixed (by decide))

theorem runs_resultTypes (t : Table) (a : Accessor) :
    ∀ s ∈ a.resultTypes t.modelName, Runs allowed .between s .inside := by
  have hpointer : Runs allowed .between ("*" ++ t.modelName) .inside :=
    .append (.fixed (by decide)) (runs_model t)
  have hslice : Runs allowed .between ("[]*" ++ t.modelName) .inside :=
    .append (.fixed (by decide)) (runs_model t)
  cases a with
  | get key => simpa [resultTypes] using hpointer
  | listBy key order | list order =>
    simpa [resultTypes] using ⟨Runs.fixed (by decide), hslice⟩
  | create | update key | delete key | mark key c literal | restore key c literal =>
    simpa [resultTypes] using Runs.fixed (by decide)

theorem runs_zeros (a : Accessor) : ∀ s ∈ a.zeros, Runs allowed .between s .inside := by
  cases a with
  | get key => simpa [zeros] using Runs.fixed (by decide)
  | listBy key order | list order =>
    simpa [zeros] using ⟨Runs.fixed (by decide), Runs.fixed (by decide)⟩
  | create | update key | delete key | mark key c literal | restore key c literal =>
    simpa [zeros] using Runs.fixed (by decide)

theorem runs_code (hstrings : "strings" ∈ allowed) (herrors : "errors" ∈ allowed)
    (hsql : "sql" ∈ allowed) (t : Table) {o : Options}
    (htime : o.rounding.isSome = true → "time" ∈ allowed) (a : Accessor) :
    CodeRuns allowed (a.code t o) := by
  have hhead : Runs allowed .between (a.head t.modelName o.convention) .inside := by
    have hpage : Runs allowed .inside (if a.isPaged then ", page int, size int)" else ")") .inside := by
      split <;> exact .fixed (by decide)
    exact .append (.append (.append (.append (.append (.fixed (by decide))
      (.name (a := .inside) (by decide) (a.isName_name (isName_modelName t)))) (.fixed (by decide)))
      (runs_model t)) hpage) (o.convention.runs_results (a.runs_resultTypes t))
  refine .append (.comment (.append (.fixed (by decide)) (a.runs_summary t)))
    (.declaration hhead (.flatMap fun s hs => ?_))
  exact Step.runs_code hstrings herrors hsql t o.convention a.runs_zeros
    fun b hb hrounding => htime (rounding_of_mem_bounds hs hb hrounding)

end Accessor

namespace Access

theorem runs_scanCode (t : Table) : CodeRuns allowed (scanCode t) := by
  have htargets : Runs allowed .between (scanTargets t) .inside := by
    refine .list fun s hs => ?_
    obtain ⟨c, -, rfl⟩ := List.mem_map.1 hs
    exact .unselect (.append (.fixed (by decide)) (.name (by decide) (isName_upperCamel c.name)))
  have hhead : Runs allowed .between
      ("func scan" ++ t.modelName ++ "(row interface\x7b Scan(dest ...any) error \x7d) (*" ++ t.modelName
        ++ ", error)") .inside :=
    .append (.append (.append (.append (.fixed (by decide)) (runs_model t)) (.fixed (by decide)))
      (runs_model t)) (.fixed (by decide))
  exact .declaration hhead (.append (.append
    (.line (.append (.fixed (by decide)) (.composite (a := .between) (runs_between_model t)
      (.fixed (by decide)))))
    (.block (.append (.append (.fixed (by decide)) htargets) (.fixed (by decide))) (.fixed (by decide))))
    (.fixed (by decide)))

theorem runs_pageCode (hstrings : "strings" ∈ allowed) (t : Table) : CodeRuns allowed (pageCode t) := by
  have hquery (parts : List QueryPart) :
      Runs allowed .between (inlineQuery t.modelName parts) .inside :=
    runs_queryParts hstrings t (.fixed (by decide)) parts
  have hnumbers : Runs allowed .between (join ", " (pageNumbers.map PageNumber.text)) .inside :=
    .computed (by decide)
  have hhead : Runs allowed .between ("func queryMany" ++ t.modelName
      ++ "(db DataSource, where string, order string, args []any, page int, size int) (int, []*"
      ++ t.modelName ++ ", error)") .inside :=
    .append (.append (.append (.append (.fixed (by decide)) (runs_model t)) (.fixed (by decide)))
      (runs_model t)) (.fixed (by decide))
  refine .declaration hhead (.append (.append (.append (.append (.append (.append (.append (.append
    (.append ?_ ?_) ?_) ?_) ?_) ?_) ?_) ?_) ?_) ?_)
  · exact .block (.fixed (by decide)) (.fixed (by decide))
  · exact .block (.fixed (by decide)) (.fixed (by decide))
  · exact .fixed (by decide)
  · exact .block (.append (.append (.fixed (by decide)) (hquery _)) (.fixed (by decide)))
      (.fixed (by decide))
  · exact .line (.append (.append (.append (.append (.fixed (by decide)) (hquery _)) (.fixed (by decide)))
      hnumbers) (.fixed (by decide)))
  · exact .fixed (by decide)
  · exact .fixed (by decide)
  · exact .line (.append (.append (.fixed (by decide)) (runs_model t)) (.fixed (by decide)))
  · exact .block (.fixed (by decide)) (.append (.append
      (.line (.append (.append (.fixed (by decide)) (runs_model t)) (.fixed (by decide))))
      (.fixed (by decide))) (.fixed (by decide)))
  · exact .fixed (by decide)

theorem runs_tableCode (hstrings : "strings" ∈ allowed) (herrors : "errors" ∈ allowed)
    (hsql : "sql" ∈ allowed) (t : Table) {o : Options}
    (htime : o.rounding.isSome = true → "time" ∈ allowed) : CodeRuns allowed (tableCode t o) := by
  have hcolumns : CodeRuns allowed (columnsCode t) :=
    .append (.line (.append (.append (.append (.fixed (by decide)) (runs_columnsConstant t))
      (.fixed (by decide))) (.loosen (.quote _ _)))) (.fixed (by decide))
  exact .append (.append (.append (.append (runs_heading (isName_modelName t)) hcolumns)
    (runs_scanCode t)) (runs_pageCode hstrings t))
    (.flatMap fun a _ => a.runs_code hstrings herrors hsql t htime)

theorem runs_sharedCode (hstrings : "strings" ∈ allowed) (herrors : "errors" ∈ allowed)
    (hsql : "sql" ∈ allowed) : CodeRuns allowed sharedCode := by
  have hfixed {cs : List Char} {b : Spot} (h : fits ["sql", "errors", "strings"] .between cs b = true) :
      Runs allowed .between (String.ofList cs) b := .naming _ h (by simp [hstrings, herrors, hsql])
  refine .append (.append (.append (.append (.append ?_ ?_) ?_) ?_) ?_) ?_
  · exact .comment (hfixed (by decide))
  · exact .declaration (hfixed (by decide)) (.lines_cons (.line (hfixed (by decide)))
      (.lines_cons (.line (hfixed (by decide))) (.lines_cons (.line (hfixed (by decide))) .nil)))
  · exact .enclosed (hfixed (by decide)) (.lines_cons (.line (hfixed (by decide)))
      (.lines_cons (.line (hfixed (by decide))) .nil)) (hfixed (by decide))
  · exact .fixed (by decide)
  · exact .declaration (hfixed (by decide)) (.append
      (.block (hfixed (by decide)) (.line (hfixed (by decide)))) (.line (hfixed (by decide))))
  · exact .declaration (hfixed (by decide)) (.append
      (.block (hfixed (by decide)) (.line (hfixed (by decide)))) (.line (hfixed (by decide))))

theorem runs_body {tables : List Table} {o : Options} (today : String)
    (hstrings : "strings" ∈ allowed) (herrors : "errors" ∈ allowed) (hsql : "sql" ∈ allowed)
    (htime : rounds tables o = true → "time" ∈ allowed) :
    CodeRuns allowed (file tables o today).body := by
  have hpreamble : CodeRuns allowed (preamble o.convention (rounds tables o)) := by
    refine .append (.append (runs_sharedCode hstrings herrors hsql) ?_) ?_
    · cases o.convention with
      | panicking => exact Convention.runs_assertHelper
      | returned => exact .nil
    · split
      · next hrounds =>
        exact .naming ["time"] (by decide) (by simpa using htime hrounds)
      · exact .nil
  refine .append hpreamble (.flatMap fun t _ => runs_tableCode hstrings herrors hsql t fun h => htime ?_)
  -- No rounding is left for the tables unless the file rounds.
  cases hrounding : o.rounding <;> cases htimes : tables.any (·.hasTimes) <;>
    simp_all [tableOptions, rounds]

end Access

end GoScaffold
