import GoScaffold.Options.Basic
import GoScaffold.Toml.Document

set_option autoImplicit false

/-! # Configurations

A configuration file is a TOML document whose table `generator` holds the options of rendering,
where to write and whether to format. A setting that is left out has its default, one that is not
known is passed over, and one of the wrong kind makes the whole file invalid. -/

namespace GoScaffold

/-- What a configuration file decides. -/
structure Config where
  options : Options := {}
  /-- The output directory. -/
  output : Option String := none
  /-- Whether written files are formatted. -/
  format : Bool := true
  deriving DecidableEq, Repr

namespace Config

open Toml (Entries Value)

/-- The name of the file that is read when no other is named. -/
def fileName : String := "ddlgen.toml"

/-! ## Settings -/

/-- A string. -/
def text? : Value → Option String
  | .text s => some s
  | _ => none

/-- A truth value. -/
def truth? : Value → Option Bool
  | .truth b => some b
  | _ => none

/-- A list of strings. -/
def texts? : Value → Option (List String)
  | .list items => items.mapM text?
  | _ => none

/-- Whether nothing is in the value. -/
def isVoid : Value → Bool
  | .list items => items.isEmpty
  | .table _ entries => entries.isEmpty
  | _ => false

/-- One of several named choices: its name, or a table with just this name and nothing in it. -/
def choice? {α : Type} (ofName? : String → Option α) : Value → Option α
  | .text name => ofName? name
  | .table _ [(name, v)] => if isVoid v then ofName? name else none
  | _ => none

/-- A string that is read further. -/
def parsed? {ε α : Type} (parse : String → Except ε α) (v : Value) : Option α :=
  (text? v).bind fun s => (parse s).toOption

/-- The settings of a section. A table names them; a list gives them in the order of `names`, and
may stop early; a date gives none. -/
def settings? (names : List String) : Value → Option Entries
  | .table _ entries => some entries
  | .list items => some (names.zip items)
  | .tables elements => some (names.zip (elements.map (.table .header)))
  | .moment _ => some []
  | _ => none

/-- A setting, or its default if it is left out. -/
def setting? {α : Type} (entries : Entries) (name : String) (read : Value → Option α) (default : α) :
    Option α :=
  match entries.lookup name with
  | none => some default
  | some v => read v

/-! ## Sections -/

/-- Which artifacts are rendered. -/
def targets? (v : Value) : Option Targets := do
  let d : Targets := {}
  let es ← settings? ["model", "crud", "router", "service", "doc"] v
  return {
    model := ← setting? es "model" truth? d.model
    crud := ← setting? es "crud" truth? d.crud
    router := ← setting? es "router" truth? d.router
    service := ← setting? es "service" truth? d.service
    doc := ← setting? es "doc" truth? d.doc }

/-- The settings of the table `generator`, in their order. -/
def names : List String := [
  "package", "module", "service_name", "output", "banner", "targets", "order_asc", "order_desc",
  "logical_delete", "round", "style", "convention", "format"]

/-- The table `generator`. -/
def generator? (v : Value) : Option Config := do
  let d : Config := {}
  let es ← settings? names v
  let optional {α : Type} (name : String) (read : Value → Option α) : Option (Option α) :=
    setting? es name (fun v => (read v).map some) none
  let options : Options := {
    package := ← setting? es "package" text? d.options.package
    module := ← optional "module" text?
    serviceName := ← setting? es "service_name" text? d.options.serviceName
    banner := ← setting? es "banner" truth? d.options.banner
    targets := ← setting? es "targets" targets? d.options.targets
    orderAsc := ← setting? es "order_asc" texts? d.options.orderAsc
    orderDesc := ← setting? es "order_desc" texts? d.options.orderDesc
    logicalDelete := ← optional "logical_delete" (parsed? LogicalDelete.parse)
    rounding := ← optional "round" (parsed? Rounding.parse)
    style := ← setting? es "style" (choice? Style.ofName?) d.options.style
    convention := ← setting? es "convention" (choice? Convention.ofName?) d.options.convention }
  return {
    options := options
    output := ← optional "output" text?
    format := ← setting? es "format" truth? d.format }

/-- The configuration that a file describes. -/
def parse? (text : String) : Option Config := do
  setting? (← Toml.parse? text) "generator" generator? {}

end Config

end GoScaffold
