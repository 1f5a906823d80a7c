import GoScaffold.Command.Arguments
import GoScaffold.Config.Basic

set_option autoImplicit false

/-! # Plans

What `generate` is to do follows from its configuration and its arguments. Arguments win: a value
replaces the configured one, and a switch adds to what is configured. -/

namespace GoScaffold

/-- What is to be rendered, and where it goes. -/
structure Plan where
  options : Options
  /-- The directory to write to; without one, artifacts are printed. -/
  output : Option String
  format : Bool
  deriving DecidableEq, Repr

namespace Plan

/-- The first list, or the second if the first is empty. -/
def orElse (given configured : List String) : List String :=
  if given.isEmpty then configured else given

/-- The targets that are configured, with those of the arguments. -/
def targets (a : GenerateArguments) (t : Targets) : Targets where
  model := t.model && !a.noModel
  crud := t.crud && !a.noCrud
  router := t.router || a.router
  service := t.service || a.service
  doc := t.doc || a.doc

/-- The options that are configured, with those of the arguments. -/
def resolveOptions (a : GenerateArguments) (o : Options) : Options where
  package := a.package.getD o.package
  module := a.module <|> o.module
  serviceName := a.serviceName.getD o.serviceName
  banner := o.banner && !a.noBanner
  targets := targets a o.targets
  orderAsc := orElse a.asc o.orderAsc
  orderDesc := orElse a.desc o.orderDesc
  logicalDelete := a.logic <|> o.logicalDelete
  rounding := a.round <|> o.rounding
  style := if a.orm then .orm else o.style
  convention := if a.panic then .panicking else o.convention

/-- The plan of some arguments under a configuration. -/
def resolve (a : GenerateArguments) (c : Config) : Plan where
  options := resolveOptions a c.options
  output := a.output <|> c.output
  format := c.format && !a.noFormat

end Plan

/-- How much is logged: a level by how often more was asked for. -/
def logLevel (verbose : Nat) : String :=
  if verbose = 0 then "warn" else if verbose = 1 then "debug" else "trace"

end GoScaffold
