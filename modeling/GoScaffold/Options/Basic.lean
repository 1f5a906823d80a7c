import GoScaffold.Options.LogicalDelete

set_option autoImplicit false

/-! # Options of rendering

What can be chosen about the rendered artifacts. Every field has a default, and the defaults
together are the options of an empty configuration. -/

namespace GoScaffold

/-- How the rendered service reaches the database. -/
inductive Style
  /-- Through the rendered data access functions. -/
  | plain
  /-- Through gorm. -/
  | orm
  deriving DecidableEq, Repr

/-- How rendered functions report failures. -/
inductive Convention
  /-- An `error` is the last result. -/
  | returned
  /-- Failures panic, and handlers recover. -/
  | panicking
  deriving DecidableEq, Repr

/-- The name of the style in configurations. -/
def Style.name : Style → String
  | .plain => "plain"
  | .orm => "orm"

/-- The name of the convention in configurations. -/
def Convention.name : Convention → String
  | .returned => "error"
  | .panicking => "panic"

/-- The style with this name. -/
def Style.ofName? (name : String) : Option Style := [Style.plain, .orm].find? (·.name == name)

/-- The convention with this name. -/
def Convention.ofName? (name : String) : Option Convention :=
  [Convention.returned, .panicking].find? (·.name == name)

/-- Which artifacts are rendered. -/
structure Targets where
  model : Bool := true
  crud : Bool := true
  router : Bool := false
  service : Bool := false
  doc : Bool := false
  deriving DecidableEq, Repr

/-- All artifacts. -/
def Targets.all : Targets := ⟨true, true, true, true, true⟩

/-- The options of rendering. -/
structure Options where
  /-- The package of the records and the data access functions. -/
  package : String := "model"
  /-- The module path that rendered packages are imported from. -/
  module : Option String := none
  /-- The name of the service file and, in camel case, of the service type. -/
  serviceName : String := "service"
  /-- Whether artifacts say when they were rendered. -/
  banner : Bool := true
  targets : Targets := {}
  /-- Columns that lists can be ordered by, upwards. -/
  orderAsc : List String := []
  /-- Columns that lists can be ordered by, downwards. -/
  orderDesc : List String := []
  logicalDelete : Option LogicalDelete := none
  rounding : Option Rounding := none
  style : Style := .plain
  convention : Convention := .returned
  deriving DecidableEq, Repr

namespace Options

/-- The name of the service type. -/
def serviceType (o : Options) : String :=
  if Text.sameLetters o.serviceName "service" then "Service"
  else Naming.upperCamel o.serviceName ++ "Service"

/-- The path that a rendered package is imported by: below the module path, or just its name if
there is none. -/
def importPath (o : Options) (package : String) : String :=
  match o.module with
  | some path => Text.onChars (Text.dropEndWhile (· == '/')) path ++ "/" ++ package
  | none => package

/-- The line that says when an artifact was rendered. -/
def bannerText? (o : Options) (today : String) : Option String :=
  if o.banner then some ("Auto Generate by ddlgen 0.1.0 on " ++ today ++ ".") else none

end Options

end GoScaffold
