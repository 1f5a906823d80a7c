import GoScaffold.Command.Usage
import GoScaffold.Input.LineRange
import GoScaffold.Options.Basic

set_option autoImplicit false

/-! # Commands and their arguments

There are four commands. Each may be asked to log more, for help and for the version; the first of
these may also stand before the command, and counts unless it stands after it too. -/

namespace GoScaffold

/-- The arguments of `generate`. -/
structure GenerateArguments where
  input : Option String := none
  output : Option String := none
  lines : Option LineRange := none
  package : Option String := none
  module : Option String := none
  serviceName : Option String := none
  noBanner : Bool := false
  noModel : Bool := false
  noCrud : Bool := false
  router : Bool := false
  service : Bool := false
  doc : Bool := false
  asc : List String := []
  desc : List String := []
  logic : Option LogicalDelete := none
  round : Option Rounding := none
  orm : Bool := false
  panic : Bool := false
  noFormat : Bool := false
  config : Option String := none
  deriving DecidableEq, Repr

/-- A command with its arguments. -/
inductive Command
  | generate (args : GenerateArguments)
  /-- Reports on the schema in a file, or on the standard input. -/
  | validate (input : Option String)
  /-- Stamps the markers below some paths. -/
  | line (paths : List String)
  | version
  deriving DecidableEq, Repr

/-- A command line. -/
structure Invocation where
  /-- How often more logging is asked for. -/
  verbose : Nat
  command : Command
  deriving DecidableEq, Repr

namespace Command

open Usage (Effect Flag Taker)

/-! ## Values -/

/-- Any text. -/
def anyText (_ : String) (s : String) : Except UsageError String := .ok s

/-- A path is not empty. -/
def path (option : String) (s : String) : Except UsageError String :=
  if s.isEmpty then .error (.missingValue option) else .ok s

/-- A value that is read further, and refused with a reason. -/
def parsed {ε α : Type} (parse : String → Except ε α) (reason : ε → String) (option : String)
    (s : String) : Except UsageError α :=
  (parse s).mapError fun e => .refusedValue option (reason e)

/-- The items of a list with commas between them; empty ones count. -/
def items (s : String) : List String :=
  (Text.splitWhere (· == ',') s.toList).map String.ofList

/-- An option that takes one value. -/
def single {α β : Type} (long : String) (short : Option Char)
    (read : String → String → Except UsageError β) (get : α → Option β) (set : α → β → α) : Flag α :=
  let take (s : String) (a : α) : Except UsageError α := (read ("--" ++ long) s).map (set a)
  ⟨long, short, .value ⟨"--" ++ long, fun a => (get a).isSome, take⟩⟩

/-- An option that collects the items of its values. -/
def collecting {α : Type} (long : String) (add : α → List String → α) : Flag α :=
  ⟨long, none, .value ⟨"--" ++ long, fun _ => false, fun s a => .ok (add a (items s))⟩⟩

/-- A switch. -/
def switch {α : Type} (long : String) (isOn : α → Bool) (turnOn : α → α) : Flag α :=
  ⟨long, none, .switch isOn turnOn⟩

/-! ## Commands -/

/-- The arguments of `generate`. -/
def generateUsage : Usage GenerateArguments where
  flags := [
    single "input" (some 'i') path (·.input) fun a v => { a with input := some v },
    single "output" (some 'o') path (·.output) fun a v => { a with output := some v },
    single "lines" none (parsed LineRange.parse LineRange.Refusal.message) (·.lines)
      fun a v => { a with lines := some v },
    single "package" (some 'p') anyText (·.package) fun a v => { a with package := some v },
    single "module" (some 'm') anyText (·.module) fun a v => { a with module := some v },
    single "service-name" none anyText (·.serviceName) fun a v => { a with serviceName := some v },
    switch "no-banner" (·.noBanner) fun a => { a with noBanner := true },
    switch "no-model" (·.noModel) fun a => { a with noModel := true },
    switch "no-crud" (·.noCrud) fun a => { a with noCrud := true },
    switch "router" (·.router) fun a => { a with router := true },
    switch "service" (·.service) fun a => { a with service := true },
    switch "doc" (·.doc) fun a => { a with doc := true },
    collecting "asc" fun a vs => { a with asc := a.asc ++ vs },
    collecting "desc" fun a vs => { a with desc := a.desc ++ vs },
    single "logic" none (parsed LogicalDelete.parse OptionError.message) (·.logic)
      fun a v => { a with logic := some v },
    single "round" none (parsed Rounding.parse OptionError.message) (·.round)
      fun a v => { a with round := some v },
    switch "orm" (·.orm) fun a => { a with orm := true },
    switch "panic" (·.panic) fun a => { a with panic := true },
    switch "no-fmt" (·.noFormat) fun a => { a with noFormat := true },
    single "config" (some 'c') path (·.config) fun a v => { a with config := some v }]

/-- The arguments of `validate`: a file. -/
def validateUsage : Usage (Option String) where
  flags := [single "input" (some 'i') path id fun _ v => some v]

/-- The arguments of `line`: paths. -/
def lineUsage : Usage (List String) where
  operand := some ⟨"[PATHS]", fun _ => false, fun s paths =>
    (path "[PATHS]" s).map fun p => paths ++ [p]⟩

/-- The arguments of `version`, and those before a command: none but the common ones. -/
def plainUsage : Usage Unit := {}

/-- The names of the commands. -/
def names : List String := ["generate", "validate", "line", "version", "help"]

/-- Reads the arguments of a command; `before` is how much logging was asked for before it. -/
def readWith {α : Type} (before : Nat) (u : Usage α) (start : α) (command : α → Command)
    (arguments : List String) : Except UsageError Invocation :=
  (u.readAll start arguments).map fun r =>
    ⟨if r.verbose = 0 then before else r.verbose, command r.args⟩

/-- What comes of asking for help on a command: help, if there is such a command. -/
def helpOn : List String → UsageError
  | [] => .help
  | [name] => if names.contains name then .help else .unknownSubcommand name
  | name :: next :: _ => .unknownSubcommand (if names.contains name then next else name)

/-- Reads a command by its name. -/
def readNamed (before : Nat) (name : String) (arguments : List String) :
    Except UsageError Invocation :=
  match name with
  | "generate" => readWith before generateUsage {} .generate arguments
  | "validate" => readWith before validateUsage none .validate arguments
  | "line" =>
    readWith before lineUsage [] (fun ps => .line (if ps.isEmpty then ["."] else ps)) arguments
  | "version" => readWith before plainUsage () (fun _ => .version) arguments
  | "help" => .error (helpOn arguments)
  | _ => .error (.unknownSubcommand name)

/-- Reads a command line from its options before the command on. -/
def readFrom (r : Usage.Reading Unit) : List String → Except UsageError Invocation
  | [] => .error (if r.verbose = 0 then .noArguments else .missingSubcommand)
  | argument :: rest =>
    if r.escaped then
      .error (if names.contains argument then .unknownArgument argument else .unknownSubcommand argument)
    else
      match Usage.wordOf argument.toList with
      | .plain => readNamed r.verbose argument rest
      | _ => (plainUsage.read r argument).bind fun r => readFrom r rest

/-- Reads a command line. -/
def parse (arguments : List String) : Except UsageError Invocation := readFrom { args := () } arguments

end Command

end GoScaffold
