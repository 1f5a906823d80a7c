import GoScaffold.Artifact.Basic
import GoScaffold.Proofs.Artifact.References.Data
import GoScaffold.Proofs.Artifact.References.Service
import GoScaffold.Proofs.Text.Paths

set_option autoImplicit false

/-! # Imports and what they are for

The imports of a file are decided apart from the code that needs them: by whether there are tables,
times or primary groups, by style, convention and rounding. Each import but one has a line of the body
that refers to it (`hasLine_of_mem_imports`), and the body refers to no package that is not imported
(`codeRuns_imports`); the one is the log of a router without tables whose service returns its errors. -/

namespace GoScaffold

open Go GoScaffold.Path

/-! ## Import declarations -/

theorem mem_insertPath {path p : String} {paths : List String} :
    p ∈ insertPath path paths ↔ p = path ∨ p ∈ paths := by
  induction paths with
  | nil => simp [insertPath]
  | cons q paths ih =>
    rw [insertPath]
    split
    · exact List.mem_cons
    split
    · next heq => simp [heq]
    · rw [List.mem_cons, ih, List.mem_cons]
      exact or_left_comm

theorem mem_sortPaths {p : String} {paths : List String} : p ∈ sortPaths paths ↔ p ∈ paths := by
  unfold sortPaths
  induction paths with
  | nil => simp
  | cons path paths ih => rw [List.foldr_cons, mem_insertPath, ih, List.mem_cons]

/-- The line of an import. -/
def importLine (path : String) : Line := ⟨1, "\"" ++ path ++ "\""⟩

theorem importLine_injective : Function.Injective importLine := by
  intro p q h
  have htext : "\"" ++ p ++ "\"" = "\"" ++ q ++ "\"" := congrArg Line.text h
  simpa using htext

/-- The paths of an import declaration are the imports. -/
theorem importLine_mem_importCode {path : String} {imports : List String} :
    importLine path ∈ importCode imports ↔ path ∈ imports := by
  have hline (text : String) : importLine path ∉ line text := by
    rw [line, List.mem_singleton, importLine, Line.mk.injEq]
    exact fun h => absurd h.1 (by decide)
  have hempty : importLine path ∉ gap := hline ""
  have hgap (p : Prop) [Decidable p] : importLine path ∉ if p then [] else gap := by
    split
    · exact List.not_mem_nil
    · exact hempty
  have hquoted (paths : List String) :
      importLine path ∈ indent (lines (paths.map fun p => "\"" ++ p ++ "\"")) ↔ path ∈ paths := by
    have hlines : indent (lines (paths.map fun p => "\"" ++ p ++ "\"")) = paths.map importLine := by
      simp only [indent, lines, List.map_map]
      rfl
    rw [hlines]
    exact List.mem_map_of_injective importLine_injective
  refine Iff.trans ?_ mem_sortPaths
  unfold importCode
  dsimp only
  split
  · next hnone => simp [List.isEmpty_iff.1 hnone]
  · simp only [List.mem_append, hline, hgap, hempty, hquoted, false_or, or_false]
    exact List.mem_partition.symm

theorem importLine_mem_head {path : String} {f : File} : importLine path ∈ f.head ↔ path ∈ f.imports := by
  have hdepth {c : Code} (h : ∀ l ∈ c, l.depth = 0) : importLine path ∉ c :=
    fun hmem => absurd (h _ hmem) Nat.one_ne_zero
  rw [File.head, List.mem_append, importLine_mem_importCode, or_iff_right]
  refine hdepth ?_
  cases f.banner <;> simp [lines, line, gap]

/-! ## Last elements of paths -/

theorem lastPiece_importPath (o : Options) (package : String) :
    lastPiece (o.importPath package) = lastPiece package := by
  unfold Options.importPath
  split
  · exact lastPiece_append_slash _ package
  · rfl

theorem lastPiece_of_word {package : String} (hword : ∀ c ∈ package.toList, isWordPart c = true) :
    lastPiece package = package := by
  have hslash : '/' ∉ package.toList := by
    intro hmem
    exact absurd (hword _ hmem) (by decide)
  rw [lastPiece, pieces_of_notMem hslash]
  rfl

theorem mem_map_lastPiece {imports : List String} {path w : String} (hpath : path ∈ imports)
    (hw : lastPiece path = w) : w ∈ imports.map lastPiece := List.mem_map.2 ⟨path, hpath, hw⟩

/-- Whether the package of the records is a word. -/
def Options.HasWordPackage (o : Options) : Prop := ∀ c ∈ o.package.toList, isWordPart c = true

instance (o : Options) : Decidable o.HasWordPackage :=
  inferInstanceAs (Decidable (∀ c ∈ o.package.toList, isWordPart c = true))

theorem lastPiece_importPath_package {o : Options} (hword : o.HasWordPackage) :
    lastPiece (o.importPath o.package) = o.package :=
  (lastPiece_importPath o o.package).trans (lastPiece_of_word hword)

/-- What holds a path with a dot behind it holds the last element of the path so. -/
theorem spells_lastPiece {path text : String} (h : Spells path text) : Spells (lastPiece path) text := by
  obtain ⟨before, hbefore⟩ := lastPiece_suffix path
  have hinfix : (lastPiece path).toList ++ ['.'] <:+: path.toList ++ ['.'] :=
    ⟨before, [], by rw [← hbefore]; simp⟩
  exact hinfix.trans h

/-! ## Records -/

theorem Column.refers_goType {c : Column} (h : c.isTemporal = true) : Refers "time" c.goType := by
  have hcategory : c.category = .temporal := by simpa [isTemporal] using h
  rw [goType, hcategory]
  cases c.isPointer <;> decide

namespace Record

variable {tables : List Table} {o : Options} {today path : String}

theorem refers_fieldLine {c : Column} (h : c.isTemporal = true) (isKey : Bool) (style : Style) :
    Refers "time" (fieldLine c isKey style) := by
  have hfront : Runs [] .between (c.fieldName ++ " ") .between :=
    .append (.of_inside (.name (by decide) (isName_upperCamel c.name))) (.fixed (by decide))
  exact refers_append (refers_append (refers_append (refers_append
    (refers_behind hfront (c.refers_goType h)) _) _) _) _

theorem hasLine_of_mem_imports (h : path ∈ (file tables o today).imports) :
    HasLine (Refers (lastPiece path)) (file tables o today).body := by
  rcases List.mem_append.1 h with h | h
  · split at h
    · cases h
    · next hne =>
      obtain rfl := List.mem_singleton.1 h
      obtain ⟨t, ht⟩ := List.exists_mem_of_ne_nil tables (by simpa using hne)
      have hfmt : Refers "fmt" "return fmt.Sprintf(\"" := refers_fixed (by decide)
      exact .left (.flatMap ht (.right (.declaration (.right (.line
        (refers_append (refers_append (refers_append (refers_append hfmt _) _) _) _))))))
  · split at h
    · next htimes =>
      obtain rfl := List.mem_singleton.1 h
      obtain ⟨t, ht, htemporal⟩ := List.any_eq_true.1 htimes
      obtain ⟨c, hc, htemporal⟩ := List.any_eq_true.1 htemporal
      exact .left (.flatMap ht (.left (.left (.right (.right (.declaration
        (.lines (List.mem_map_of_mem hc) (refers_fieldLine htemporal _ _))))))))
    · cases h

/-- Whether table names stay in the comments and column names in the tags that they stand in. -/
def IsContained (tables : List Table) (o : Options) : Prop :=
  (∀ t ∈ tables, t.comment = none → '\n' ∉ t.name.toList)
    ∧ (o.style = .orm → ∀ t ∈ tables, ∀ c ∈ t.columns, '`' ∉ c.name.toList)

theorem codeRuns_imports (today : String) (h : IsContained tables o) :
    CodeRuns ((file tables o today).imports.map lastPiece) (file tables o today).body := by
  refine runs_body today h.1 h.2 (fun hne => ?_) fun htimes => ?_
  · exact mem_map_lastPiece (List.mem_append_left _ (by rw [hne]; exact List.mem_cons_self)) (by decide)
  · exact mem_map_lastPiece (List.mem_append_right _ (by rw [htimes]; exact List.mem_cons_self)) (by decide)

end Record

/-! ## Data access -/

namespace Access

variable {tables : List Table} {o : Options} {today path : String}

theorem hasLine_of_mem_imports (h : path ∈ (file tables o today).imports) :
    HasLine (Refers (lastPiece path)) (file tables o today).body := by
  have hsql : HasLine (Refers "sql") sharedCode :=
    .left (.left (.left (.left (.right (.declaration (.lines List.mem_cons_self
      (refers_fixed (by decide))))))))
  have herrors : HasLine (Refers "errors") sharedCode :=
    .left (.left (.left (.right (.enclosed (.lines List.mem_cons_self (refers_fixed (by decide)))))))
  have hstrings : HasLine (Refers "strings") sharedCode :=
    .left (.right (.declaration (.right (.line (refers_fixed (by decide))))))
  have htime : HasLine (Refers "time") truncateCode :=
    .left (.head (refers_append (refers_fixed (by decide)) _))
  rcases List.mem_append.1 h with h | h
  · refine .left (.left (.left ?_))
    simp only [List.mem_cons, List.not_mem_nil, or_false] at h
    rcases h with rfl | rfl | rfl
    · exact hsql
    · exact herrors
    · exact hstrings
  · split at h
    · next hrounds =>
      obtain rfl := List.mem_singleton.1 h
      refine .left (.right ?_)
      rw [if_pos hrounds]
      exact htime
    · cases h

theorem codeRuns_imports (tables : List Table) (o : Options) (today : String) :
    CodeRuns ((file tables o today).imports.map lastPiece) (file tables o today).body := by
  have hfixed {path w : String} (hpath : path ∈ ["database/sql", "errors", "strings"])
      (hw : lastPiece path = w) : w ∈ (file tables o today).imports.map lastPiece :=
    mem_map_lastPiece (List.mem_append_left _ hpath) hw
  refine runs_body today (hfixed (.tail _ (.tail _ (.head _))) (by decide))
    (hfixed (.tail _ (.head _)) (by decide)) (hfixed (.head _) (by decide)) fun hrounds => ?_
  exact mem_map_lastPiece (List.mem_append_right _ (by rw [hrounds]; exact List.mem_cons_self)) (by decide)

end Access

/-! ## Handlers -/

namespace Router

variable {tables : List Table} {o : Options} {today path : String}

/-- The log is left over where there is no table to handle and no failure to recover from. -/
def IsIdle (tables : List Table) (o : Options) (path : String) : Prop :=
  path = "log" ∧ tables = [] ∧ o.convention = .returned

theorem create_mem_ofTable (t : Table) : .create ∈ Operation.ofTable t := by
  unfold Operation.ofTable
  split <;> decide

/-- What holds of some line of a request's reading holds of some line of the body, if there are
tables. -/
theorem hasLine_of_bindCode {p : String → Prop}
    (h : ∀ model, HasLine p (bindCode ("*" ++ (o.package ++ "." ++ model)))) (hne : tables ≠ []) :
    HasLine p (file tables o today).body := by
  obtain ⟨t, ht⟩ := List.exists_mem_of_ne_nil tables hne
  exact .right (.flatMap ht (.right (.flatMap (create_mem_ofTable t) (.declaration (.right (.left (.left
    (h t.modelName))))))))

theorem qualifies_package (today : String) (hne : tables ≠ []) :
    HasLine (Qualifies o.package) (file tables o today).body := by
  refine hasLine_of_bindCode (fun model => .left (.line ?_)) hne
  exact ((Qualifies.self o.package model).right (.fixed (by decide))).right (.fixed (by decide)) |>.left _

theorem hasLine_log (hlog : o.convention = .panicking ∨ tables ≠ []) :
    HasLine (Refers "log") (file tables o today).body := by
  rcases hlog with hpanicking | hne
  · refine .left (.left (.right ?_))
    rw [hpanicking]
    exact .declaration (.block (.lines List.mem_cons_self (refers_fixed (by decide))))
  · exact hasLine_of_bindCode (fun _ => .right (.block (.lines List.mem_cons_self
      (refers_fixed (by decide))))) hne

theorem hasLine_service : HasLine (Refers "service") (file tables o today).body := by
  have hservice : Refers "service" "Service *service." := refers_fixed (by decide)
  exact .left (.right (.left (.left (.left (.left (.declaration (.line (refers_append hservice _))))))))

/-- An import is the package of the records, or something the body refers to, or left over. -/
theorem import_cases (h : path ∈ (file tables o today).imports) :
    (path = o.importPath o.package ∧ tables ≠ [])
      ∨ HasLine (Refers (lastPiece path)) (file tables o today).body
      ∨ IsIdle tables o path := by
  have hhttp : HasLine (Refers "http") sharedCode :=
    .left (.right (.declaration (.line (refers_append (refers_append (refers_fixed (by decide)) _) _))))
  have hgin : HasLine (Refers "gin") sharedCode :=
    .left (.right (.left (.head (refers_append (refers_fixed (by decide)) _))))
  have hstrings : HasLine (Refers "strings") (routerCode tables o) :=
    .right (.declaration (.block (.lines List.mem_cons_self (refers_fixed (by decide)))))
  have hfmt : HasLine (Refers "fmt") recoverCode :=
    .declaration (.block (.lines (List.mem_cons_of_mem _ List.mem_cons_self) (refers_fixed (by decide))))
  -- The imports are the fixed ones, that of the convention, the package if there are tables, the service.
  rcases List.mem_append.1 h with h | h
  · rcases List.mem_append.1 h with h | h
    · rcases List.mem_append.1 h with h | h
      · simp only [List.mem_cons, List.not_mem_nil, or_false] at h
        rcases h with rfl | rfl | rfl | rfl
        · by_cases hlog : o.convention = .panicking ∨ tables ≠ []
          · exact .inr (.inl (hasLine_log hlog))
          · rw [not_or, not_ne_iff] at hlog
            refine .inr (.inr ⟨rfl, hlog.2, ?_⟩)
            cases hconvention : o.convention with
            | returned => rfl
            | panicking => exact absurd hconvention hlog.1
        · exact .inr (.inl (.left (.left (.left hhttp))))
        · exact .inr (.inl (.left (.right hstrings)))
        · exact .inr (.inl (.left (.left (.left hgin))))
      · cases hconvention : o.convention with
        | returned =>
          rw [hconvention] at h
          cases h
        | panicking =>
          rw [hconvention] at h
          obtain rfl := List.mem_singleton.1 h
          refine .inr (.inl (.left (.left (.right ?_))))
          rw [hconvention]
          exact hfmt
    · split at h
      · cases h
      · next hne => exact .inl ⟨List.mem_singleton.1 h, by simpa using hne⟩
  · obtain rfl := List.mem_singleton.1 h
    rw [lastPiece_importPath]
    exact .inr (.inl hasLine_service)

/-- Whether the package of the records is a word, if it is named. -/
def IsContained (tables : List Table) (o : Options) : Prop := tables ≠ [] → o.HasWordPackage

theorem codeRuns_imports (today : String) (h : IsContained tables o) :
    CodeRuns ((file tables o today).imports.map lastPiece) (file tables o today).body := by
  have hfixed {path w : String} (hpath : path ∈ ["log", "net/http", "strings", "github.com/gin-gonic/gin"])
      (hw : lastPiece path = w) : w ∈ (file tables o today).imports.map lastPiece :=
    mem_map_lastPiece (List.mem_append_left _ (List.mem_append_left _ (List.mem_append_left _ hpath))) hw
  refine runs_body today (hfixed (.tail _ (.head _)) (by decide))
    (hfixed (.tail _ (.tail _ (.tail _ (.head _)))) (by decide))
    (hfixed (.tail _ (.tail _ (.head _))) (by decide)) (fun _ => hfixed (.head _) (by decide))
    (fun hpanicking => ?_) h fun hne => ?_
  · exact mem_map_lastPiece (List.mem_append_left _ (List.mem_append_left _ (List.mem_append_right _
      (by rw [hpanicking]; exact List.mem_cons_self)))) (by decide)
  · have himport : o.importPath o.package ∈ (file tables o today).imports :=
      List.mem_append_left _ (List.mem_append_right _ (by simp [hne]))
    exact mem_map_lastPiece himport (lastPiece_importPath_package (h hne))

/-- A log that is left over is not referred to. -/
theorem not_refers_of_isIdle (today : String) (h : IsIdle tables o path) :
    ¬Refers (lastPiece path) (render (file tables o today).body) := by
  obtain ⟨rfl, rfl, hreturned⟩ := h
  -- Nothing of what asks for the log is there, so the body runs without it.
  have hruns : CodeRuns ["http", "gin", "strings"] (file [] o today).body :=
    runs_body today (by decide) (by decide) (by decide) (by simp [hreturned]) (by simp [hreturned])
      (fun hne => absurd rfl hne) fun hne => absurd rfl hne
  intro hlog
  exact absurd (mem_allowed_of_references hruns hlog (by decide)) (by decide)

end Router

/-! ## Services -/

namespace Service

variable {tables : List Table} {o : Options} {today path : String}

theorem qualifies_package (today : String) (hne : tables ≠ []) :
    HasLine (Qualifies o.package) (file tables o today).body := by
  obtain ⟨t, ht⟩ := List.exists_mem_of_ne_nil tables hne
  have hservice : Runs [] .inside o.serviceType .inside := .name (by decide) (isName_serviceType o)
  have hmethod : Runs [] .between ("func (p *" ++ o.serviceType ++ ") "
      ++ Operation.create.methodName t.modelName ++ "(") .between :=
    .append (.append (.append (.append (.fixed (by decide)) hservice) (.fixed (by decide)))
      (runs_methodName .create t (a := .inside) (by decide))) (.fixed (by decide))
  have hparameters : Qualifies o.package (parameters t o .create) :=
    ((Qualifies.self o.package t.modelName).right (.fixed (by decide))).left _
  exact .right (.flatMap ht (.right (.flatMap (Router.create_mem_ofTable t)
    (.left (.head ((((hparameters.right hmethod).left _).left _).left _))))))

theorem hasLine_errors (hstyle : o.style = .orm) (hprimary : tables.any (·.keys.primary.isSome) = true) :
    HasLine (Refers "errors") (file tables o today).body := by
  obtain ⟨t, ht, hprimary⟩ := List.any_eq_true.1 hprimary
  have hget : .get ∈ Operation.ofTable t := by
    rw [Operation.ofTable, if_pos hprimary]
    decide
  refine .right (.flatMap ht (.right (.flatMap hget (.declaration ?_))))
  rw [hstyle]
  exact .left (.left (.right (.head (refers_append (refers_fixed (by decide)) _))))

/-- An import is the package of the records or something the body refers to. -/
theorem import_cases (h : path ∈ (file tables o today).imports) :
    (path = o.importPath o.package ∧ tables ≠ [])
      ∨ HasLine (Refers (lastPiece path)) (file tables o today).body := by
  rcases List.mem_append.1 h with h | h
  · split at h
    · cases h
    · next hne => exact .inl ⟨List.mem_singleton.1 h, by simpa using hne⟩
  · cases hstyle : o.style with
    | plain =>
      rw [hstyle] at h
      obtain rfl := List.mem_singleton.1 h
      refine .inr (.left ?_)
      rw [preamble, hstyle]
      exact .right (.declaration (.line (refers_fixed (by decide))))
    | orm =>
      rw [hstyle] at h
      rcases List.mem_cons.1 h with rfl | h
      · refine .inr (.left ?_)
        rw [preamble, hstyle]
        exact .left (.right (.declaration (.line (refers_fixed (by decide)))))
      · split at h
        · next hprimary =>
          obtain rfl := List.mem_singleton.1 h
          exact .inr (hasLine_errors hstyle hprimary)
        · cases h

/-- Whether the package of the records is a word, if it is named, and a number that marks deleted rows
refers to nothing, if it is written. -/
def IsContained (tables : List Table) (o : Options) : Prop :=
  (tables ≠ [] → o.HasWordPackage)
    ∧ (o.style = .orm → ∀ t ∈ tables, .delete ∈ Operation.ofTable t →
        ∀ c d, markColumn? t o.logicalDelete = some (c, d) → c.category.isNumeric = true →
          Runs [] .between (d.deleteLiteral c) .inside)

theorem codeRuns_imports (today : String) (h : IsContained tables o) :
    CodeRuns ((file tables o today).imports.map lastPiece) (file tables o today).body := by
  refine runs_body today h.1 (fun hne => ?_) (fun hstyle => ?_) (fun hstyle => ?_) (fun hstyle hprimary => ?_)
    h.2
  · have himport : o.importPath o.package ∈ (file tables o today).imports :=
      List.mem_append_left _ (by simp [hne])
    exact mem_map_lastPiece himport (lastPiece_importPath_package (h.1 hne))
  · exact mem_map_lastPiece (List.mem_append_right _ (by rw [hstyle]; exact List.mem_cons_self)) (by decide)
  · exact mem_map_lastPiece (List.mem_append_right _ (by rw [hstyle]; exact List.mem_cons_self)) (by decide)
  · exact mem_map_lastPiece (List.mem_append_right _ (by
      rw [hstyle, hprimary]; exact List.mem_cons_of_mem _ List.mem_cons_self)) (by decide)

end Service

/-! ## Files -/

namespace Target

/-- The Go file of a target; the document is none. -/
def file? (t : Target) (tables : List Table) (o : Options) (today : String) : Option File :=
  match t with
  | .model => some (Record.file tables o today)
  | .crud => some (Access.file tables o today)
  | .router => some (Router.file tables o today)
  | .service => some (Service.file tables o today)
  | .doc => none

/-- Whether an import of the file of a target is left over. -/
def IsIdle (t : Target) (tables : List Table) (o : Options) (path : String) : Prop :=
  t = .router ∧ Router.IsIdle tables o path

/-- Whether what the file of a target takes as it stands keeps to the place that it stands in. -/
def IsContained (t : Target) (tables : List Table) (o : Options) : Prop :=
  match t with
  | .model => Record.IsContained tables o
  | .router => Router.IsContained tables o
  | .service => Service.IsContained tables o
  | .crud | .doc => True

variable {t : Target} {tables : List Table} {o : Options} {today path : String} {f : File}

theorem emit_of_file? (h : t.file? tables o today = some f) : t.emit tables o today = f.render := by
  cases t with
  | doc => cases h
  | model | crud | router | service =>
    cases h
    rfl

/-- The body of a file refers to no package but those that are imported. -/
theorem codeRuns_imports (h : t.file? tables o today = some f) (hcontained : t.IsContained tables o) :
    CodeRuns (f.imports.map lastPiece) f.body := by
  cases t with
  | doc => cases h
  | model =>
    cases h
    exact Record.codeRuns_imports today hcontained
  | crud =>
    cases h
    exact Access.codeRuns_imports tables o today
  | router =>
    cases h
    exact Router.codeRuns_imports today hcontained
  | service =>
    cases h
    exact Service.codeRuns_imports today hcontained

/-- A line of the body refers to an import by its last element, unless it is the package of the records
or left over. -/
theorem import_cases (h : t.file? tables o today = some f) (hpath : path ∈ f.imports) :
    (lastPiece path = lastPiece o.package ∧ HasLine (Qualifies o.package) f.body
        ∧ (t.IsContained tables o → o.HasWordPackage))
      ∨ HasLine (Refers (lastPiece path)) f.body
      ∨ t.IsIdle tables o path := by
  cases t with
  | doc => cases h
  | model =>
    cases h
    exact .inr (.inl (Record.hasLine_of_mem_imports hpath))
  | crud =>
    cases h
    exact .inr (.inl (Access.hasLine_of_mem_imports hpath))
  | router =>
    cases h
    rcases Router.import_cases hpath with ⟨rfl, hne⟩ | hline | hidle
    · exact .inl ⟨lastPiece_importPath o o.package, Router.qualifies_package today hne, fun h => h hne⟩
    · exact .inr (.inl hline)
    · exact .inr (.inr ⟨rfl, hidle⟩)
  | service =>
    cases h
    rcases Service.import_cases hpath with ⟨rfl, hne⟩ | hline
    · exact .inl ⟨lastPiece_importPath o o.package, Service.qualifies_package today hne, fun h => h.1 hne⟩
    · exact .inr (.inl hline)

theorem spells_import (h : t.file? tables o today = some f) (hpath : path ∈ f.imports) :
    Spells (lastPiece path) (render f.body) ∨ t.IsIdle tables o path := by
  rcases import_cases h hpath with ⟨hlast, hpackage, -⟩ | hline | hidle
  · rw [hlast]
    exact .inl (spells_lastPiece (hpackage.mono fun _ => Qualifies.spells).spells_render)
  · exact .inl (hline.mono fun _ => spells_of_refers).spells_render
  · exact .inr hidle

theorem refers_import_iff (h : t.file? tables o today = some f) (hcontained : t.IsContained tables o)
    (hpath : path ∈ f.imports) :
    Refers (lastPiece path) (render f.body) ↔ ¬t.IsIdle tables o path := by
  have hruns := codeRuns_imports h hcontained
  constructor
  · rintro hrefers ⟨rfl, hidle⟩
    cases h
    exact Router.not_refers_of_isIdle today hidle hrefers
  · intro hbusy
    rcases import_cases h hpath with ⟨hlast, hpackage, hword⟩ | hline | hidle
    · rw [hlast, lastPiece_of_word (hword hcontained)]
      exact (hpackage.mono fun _ => Qualifies.refers (hword hcontained)).refers_render hruns
    · exact hline.refers_render hruns
    · exact absurd hidle hbusy

/-- The import declaration of a Go file holds its imports. Each is spelled in the body with a dot behind
its last element, except for the log of a router without tables whose service returns its errors. Where
names keep to the places they stand in, the body refers to just the other imports, outside comments and
literals, and to no package of the libraries that is not imported. -/
theorem imports_used (h : t.file? tables o today = some f) :
    t.emit tables o today = f.render
      ∧ (∀ path, importLine path ∈ f.head ↔ path ∈ f.imports)
      ∧ (∀ path ∈ f.imports, Spells (lastPiece path) (render f.body) ∨ t.IsIdle tables o path)
      ∧ (t.IsContained tables o →
          (∀ path ∈ f.imports, Refers (lastPiece path) (render f.body) ↔ ¬t.IsIdle tables o path)
            ∧ ∀ w ∈ packages, Refers w (render f.body) → ∃ path ∈ f.imports, lastPiece path = w) := by
  refine ⟨emit_of_file? h, fun path => importLine_mem_head, fun path => spells_import h,
    fun hcontained => ⟨fun path => refers_import_iff h hcontained, fun w hw hrefers => ?_⟩⟩
  exact List.mem_map.1 (mem_allowed_of_references (codeRuns_imports h hcontained) hrefers hw)

/-- A table whose rows are marked as deleted by a number. -/
def markedTable : Table where
  name := "t"
  columns := [
    { name := "id", declaredType := "INT", flags := { primary := true, autoIncrement := true } },
    { name := "made", declaredType := "DATETIME" },
    { name := "deleted", declaredType := "INT" }]

/-- Options that mark rows through gorm. -/
def markedOptions : Options where
  module := some "example/app/"
  logicalDelete := some ⟨"deleted", "1"⟩
  style := .orm

/-- For that table the service refers to each of its imports: the package of the records, `errors` and
`gorm`. -/
theorem imports_used_markedTable :
    service.file? [markedTable] markedOptions "" = some (Service.file [markedTable] markedOptions "")
      ∧ service.IsContained [markedTable] markedOptions
      ∧ (Service.file [markedTable] markedOptions "").imports
          = ["example/app/model", "gorm.io/gorm", "errors"]
      ∧ ∀ path ∈ (Service.file [markedTable] markedOptions "").imports,
          Refers (lastPiece path) (render (Service.file [markedTable] markedOptions "").body) := by
  have hcontained : service.IsContained [markedTable] markedOptions := by
    refine ⟨fun _ => by decide, fun _ t ht _ c d hmark _ => ?_⟩
    obtain rfl := List.mem_singleton.1 ht
    have hmarked : markColumn? markedTable markedOptions.logicalDelete
        = some ({ name := "deleted", declaredType := "INT" }, ⟨"deleted", "1"⟩) := by decide
    rw [hmarked] at hmark
    cases hmark
    exact .fixed (by decide)
  refine ⟨rfl, hcontained, by decide, fun path hpath => ?_⟩
  exact (((imports_used rfl).2.2.2 hcontained).1 path hpath).2 fun hidle => by cases hidle.1

/-- A router without tables: it imports the log and holds no word that would refer to it. -/
theorem not_imports_used_noTables :
    ¬∀ (t : Target) (tables : List Table) (o : Options) (today : String) (f : File),
      t.file? tables o today = some f → ∀ path ∈ f.imports, Spells (lastPiece path) (render f.body) := by
  intro h
  have hlog := h .router [] {} "" _ rfl "log" (by decide)
  have hline : HasLine (Spells "log") (Router.file [] {} "").body :=
    hasLine_of_spells_render (by decide) hlog
  exact absurd hline (by decide +kernel)

end Target

end GoScaffold
