import GoScaffold.Artifact.Basic
import GoScaffold.Proofs.Artifact.Rounding

set_option autoImplicit false

/-! # Every table has a section of its own

An artifact is made of fixed texts and, between them, a part for each table, in the order of the
tables. The fixed texts go by the options, the day and four decisions that are taken over all tables;
the part of a table goes by the options and the table alone, as in the artifact of just that table
(`Target.emit_sections`). -/

namespace GoScaffold

open Go

/-! ## Fixed texts and parts -/

/-- The fixed texts and the parts in turn, a fixed text first. -/
def weave : List String → List String → String
  | fixed :: rest, part :: parts => fixed ++ part ++ weave rest parts
  | fixed, [] => Text.concat fixed
  | [], parts => Text.concat parts

@[simp] theorem weave_cons_cons (fixed part : String) (rest parts : List String) :
    weave (fixed :: rest) (part :: parts) = fixed ++ part ++ weave rest parts := rfl

@[simp] theorem weave_nil (fixed : List String) : weave fixed [] = Text.concat fixed := by
  cases fixed <;> rfl

/-- What is decided over all tables of an artifact. -/
structure Decisions where
  /-- There are tables. -/
  populated : Bool
  /-- Some table has times. -/
  times : Bool
  /-- Some record has a pointer. -/
  pointers : Bool
  /-- Some table has a group behind the operations on single rows. -/
  keyed : Bool
  deriving DecidableEq, Repr

/-- The decisions over some tables. -/
def Decisions.of (tables : List Table) : Decisions where
  populated := !tables.isEmpty
  times := tables.any (·.hasTimes)
  pointers := tables.any (·.columns.any (·.isPointer))
  keyed := tables.any (·.keys.primary.isSome)

namespace Go

/-- What stands before the body of a file with these imports. -/
def headText (package : String) (banner : Option String) (imports : List String) : String :=
  render (File.head ⟨package, banner, imports, []⟩)

theorem render_flatMap {α : Type} (f : α → Code) (as : List α) :
    render (as.flatMap f) = Text.concat (as.map fun a => render (f a)) := by
  induction as with
  | nil => rfl
  | cons a as ih =>
    rw [List.flatMap_cons, render_append, ih]
    rfl

/-- A file is its head and its body. -/
theorem File.render_eq (f : File) :
    f.render = endOnce (headText f.package f.banner f.imports ++ Go.render f.body) := by
  rw [File.render, render_append]
  rfl

end Go

variable (tables : List Table) (o : Options) (today : String)

/-! ## Records -/

namespace Record

/-- The imports by the decisions. -/
def decidedImports (d : Decisions) : List String :=
  (if d.populated then ["fmt"] else []) ++ (if d.times then ["time"] else [])

/-- The fixed texts. -/
def frame (d : Decisions) : List String :=
  [headText o.package (o.bannerText? today) (decidedImports d),
    render (if d.pointers then derefCode else [])]

theorem render_file :
    (file tables o today).render
      = endOnce (weave (frame o today (Decisions.of tables))
          [Text.concat (tables.map fun t => render (tableCode t o.style))]) := by
  have himports : (file tables o today).imports = decidedImports (Decisions.of tables) := by
    cases tables <;> rfl
  have hbody : render (file tables o today).body
      = Text.concat (tables.map fun t => render (tableCode t o.style))
        ++ render (if (Decisions.of tables).pointers then derefCode else []) := by
    rw [← render_flatMap, ← render_append]
    rfl
  rw [File.render_eq, himports, hbody, frame, weave_cons_cons, weave_nil, String.append_assoc]
  simp only [Text.concat, String.append_empty]
  rfl

end Record

/-! ## Data access -/

namespace Access

/-- Whether times are truncated, by the decisions. -/
def decidedRounds (d : Decisions) : Bool := o.rounding.isSome && d.times

/-- The fixed texts. -/
def frame (d : Decisions) : List String :=
  [headText o.package (o.bannerText? today)
      (["database/sql", "errors", "strings"] ++ (if decidedRounds o d then ["time"] else []))
    ++ render (preamble o.convention (decidedRounds o d))]

/-- The part of a table is what it is in a file of its own, though the rounding is decided over all
tables of the file. -/
theorem tableCode_tableOptions_self {t : Table} (ht : t ∈ tables) :
    tableCode t (tableOptions tables o) = tableCode t (tableOptions [t] o) := by
  rw [tableCode_tableOptions ht, tableCode_tableOptions (List.mem_singleton_self t)]

theorem render_file :
    (file tables o today).render
      = endOnce (weave (frame o today (Decisions.of tables))
          [Text.concat (tables.map fun t => render (tableCode t (tableOptions [t] o)))]) := by
  have hparts : tables.flatMap (tableCode · (tableOptions tables o))
      = tables.flatMap fun t => tableCode t (tableOptions [t] o) :=
    List.flatMap_congr fun t ht => tableCode_tableOptions_self tables o ht
  have hbody : render (file tables o today).body
      = render (preamble o.convention (decidedRounds o (Decisions.of tables)))
        ++ Text.concat (tables.map fun t => render (tableCode t (tableOptions [t] o))) := by
    rw [← render_flatMap, ← hparts, ← render_append]
    rfl
  rw [File.render_eq, hbody, frame, weave_cons_cons, weave_nil, ← String.append_assoc]
  simp only [Text.concat, String.append_empty]
  rfl

end Access

/-! ## Router -/

namespace Router

/-- What stands before the entries of the map of handlers. -/
def mapOpening : Code :=
  declaration "type Router struct" (line ("Service *service." ++ o.serviceType))
    ++ line "// Router maps \"METHOD path\" to the handler serving it."
    ++ line "func (r *Router) Router() map[string]gin.HandlerFunc \x7b"
    ++ indent (line "return map[string]gin.HandlerFunc\x7b")

/-- The entries of a table in the map of handlers. -/
def entriesCode (t : Table) : Code := indent (indent (lines (routeLines t)))

/-- What stands after the entries of the map of handlers. -/
def mapClosing : Code :=
  indent (line "\x7d") ++ line "\x7d" ++ gap
    ++ line "// Register adds every route to routes."
    ++ declaration "func (r *Router) Register(routes gin.IRoutes)"
      (block "for key, handler := range r.Router()"
        (lines [
          "method, path, _ := strings.Cut(key, \" \")",
          "routes.Handle(method, path, handler)"]))

theorem routerCode_eq :
    routerCode tables o = mapOpening o ++ tables.flatMap entriesCode ++ mapClosing := by
  have hentries : indent (indent (lines (tables.flatMap routeLines))) = tables.flatMap entriesCode := by
    simp only [indent, lines, List.map_flatMap]
    rfl
  rw [← hentries]
  simp [routerCode, mapOpening, mapClosing, declaration, block, enclosed, indent]

/-- The imports by the decisions. -/
def decidedImports (d : Decisions) : List String :=
  ["log", "net/http", "strings", "github.com/gin-gonic/gin"]
    ++ (match o.convention with
      | .panicking => ["fmt"]
      | .returned => [])
    ++ (if d.populated then [o.importPath o.package] else []) ++ [o.importPath "service"]

/-- What stands before the type of the router. -/
def helpersCode : Code :=
  sharedCode
    ++ (match o.convention with
      | .panicking => recoverCode
      | .returned => [])

/-- The fixed texts. -/
def frame (d : Decisions) : List String :=
  [headText "router" (o.bannerText? today) (decidedImports o d)
      ++ render (helpersCode o ++ mapOpening o),
    render mapClosing]

theorem render_file :
    (file tables o today).render
      = endOnce (weave (frame o today (Decisions.of tables))
          [Text.concat (tables.map fun t => render (entriesCode t)),
            Text.concat (tables.map fun t => render (tableCode t o))]) := by
  have himports : (file tables o today).imports = decidedImports o (Decisions.of tables) := by
    cases tables <;> rfl
  have hbody : (file tables o today).body
      = helpersCode o ++ routerCode tables o ++ tables.flatMap (tableCode · o) := rfl
  rw [File.render_eq, himports, hbody, routerCode_eq, frame, weave_cons_cons, weave_cons_cons, weave_nil]
  simp only [render_append, render_flatMap, Text.concat, String.append_empty, String.append_assoc]
  rfl

end Router

/-! ## Service -/

namespace Service

/-- The imports by the decisions. -/
def decidedImports (d : Decisions) : List String :=
  (if d.populated then [o.importPath o.package] else [])
    ++ (match o.style with
      | .plain => ["database/sql"]
      | .orm => "gorm.io/gorm" :: (if d.keyed then ["errors"] else []))

/-- The fixed texts. -/
def frame (d : Decisions) : List String :=
  [headText "service" (o.bannerText? today) (decidedImports o d) ++ render (preamble o)]

theorem render_file :
    (file tables o today).render
      = endOnce (weave (frame o today (Decisions.of tables))
          [Text.concat (tables.map fun t => render (tableCode t o))]) := by
  have himports : (file tables o today).imports = decidedImports o (Decisions.of tables) := by
    cases tables <;> rfl
  have hbody : render (file tables o today).body
      = render (preamble o) ++ Text.concat (tables.map fun t => render (tableCode t o)) := by
    rw [← render_flatMap, ← render_append]
    rfl
  rw [File.render_eq, himports, hbody, frame, weave_cons_cons, weave_nil, ← String.append_assoc]
  simp only [Text.concat, String.append_empty]
  rfl

end Service

/-! ## Document -/

namespace Document

/-- The fixed text. -/
def frame : List String := [preamble o today]

theorem text_eq :
    text tables o today = endOnce (weave (frame o today) [Text.concat (tables.map tableSection)]) := by
  rw [text, frame, weave_cons_cons, weave_nil]
  simp only [Text.concat, String.append_empty]

end Document

/-! ## Artifacts -/

namespace Target

/-- The fixed texts of an artifact. -/
def frame (target : Target) (d : Decisions) : List String :=
  match target with
  | .model => Record.frame o today d
  | .crud => Access.frame o today d
  | .router => Router.frame o today d
  | .service => Service.frame o today d
  | .doc => Document.frame o today

/-- The parts of a table in an artifact: one, and in the router two, its entries in the map of handlers
and its handlers. -/
def parts (target : Target) : List (Table → String) :=
  match target with
  | .model => [fun t => render (Record.tableCode t o.style)]
  | .crud => [fun t => render (Access.tableCode t (Access.tableOptions [t] o))]
  | .router => [fun t => render (Router.entriesCode t), fun t => render (Router.tableCode t o)]
  | .service => [fun t => render (Service.tableCode t o)]
  | .doc => [Document.tableSection]

theorem emit_eq_weave (target : Target) :
    target.emit tables o today
      = endOnce (weave (target.frame o today (Decisions.of tables))
          ((target.parts o).map fun part => Text.concat (tables.map part))) := by
  cases target with
  | model => exact Record.render_file tables o today
  | crud => exact Access.render_file tables o today
  | router => exact Router.render_file tables o today
  | service => exact Service.render_file tables o today
  | doc => exact Document.text_eq tables o today

/-- An artifact is, but for empty lines at its end, its fixed texts with the parts of the tables between
them; the parts of a table are those of the artifact of that table alone. The rounding of the data access
functions, decided over all tables, changes the part of none. -/
theorem emit_sections (target : Target) :
    target.emit tables o today
        = endOnce (weave (target.frame o today (Decisions.of tables))
            ((target.parts o).map fun part => Text.concat (tables.map part)))
      ∧ (∀ t, target.emit [t] o today
        = endOnce (weave (target.frame o today (Decisions.of [t])) ((target.parts o).map fun part => part t)))
      ∧ ∀ t ∈ tables, Access.tableCode t (Access.tableOptions tables o)
        = Access.tableCode t (Access.tableOptions [t] o) := by
  refine ⟨emit_eq_weave .., fun t => ?_, fun t ht => Access.tableCode_tableOptions_self tables o ht⟩
  have hsingle (part : Table → String) : Text.concat ([t].map part) = part t := String.append_empty
  rw [emit_eq_weave]
  simp only [hsingle]

end Target

end GoScaffold
