import GoScaffold.Options.Basic
import GoScaffold.Path

set_option autoImplicit false

/-! # Targets

Five artifacts can be rendered, each into one file for all tables. -/

namespace GoScaffold

/-- An artifact that can be rendered. -/
inductive Target
  /-- The record types. -/
  | model
  /-- The data access functions. -/
  | crud
  /-- The handlers. -/
  | router
  /-- The service layer. -/
  | service
  /-- The document of the interface. -/
  | doc
  deriving DecidableEq, Repr

namespace Target

/-- All targets in the order of rendering. -/
def all : List Target := [.model, .crud, .router, .service, .doc]

/-- The name of the target. -/
def name : Target → String
  | .model => "model"
  | .crud => "crud"
  | .router => "router"
  | .service => "service"
  | .doc => "doc"

/-- The target with this name. -/
def ofName? (name : String) : Option Target := all.find? (·.name == name)

/-- Whether the target is switched on. -/
def isIn (t : Target) (targets : Targets) : Bool :=
  match t with
  | .model => targets.model
  | .crud => targets.crud
  | .router => targets.router
  | .service => targets.service
  | .doc => targets.doc

/-- The targets that are switched on. -/
def enabled (targets : Targets) : List Target := all.filter (·.isIn targets)

/-- The directory of the artifact; the document has none. -/
def directory? (t : Target) (o : Options) : Option String :=
  match t with
  | .model | .crud => some o.package
  | .router => some "router"
  | .service => some "service"
  | .doc => none

/-- The file name of the artifact. -/
def fileName (t : Target) (o : Options) : String :=
  match t with
  | .model => o.package ++ ".go"
  | .crud => o.package ++ "_crud.go"
  | .router => "router.go"
  | .service => o.serviceName ++ ".go"
  | .doc => "document.md"

/-- The path of the artifact below the output directory. -/
def path (t : Target) (o : Options) : String :=
  match t.directory? o with
  | some directory => Path.join directory (t.fileName o)
  | none => t.fileName o

end Target

end GoScaffold
