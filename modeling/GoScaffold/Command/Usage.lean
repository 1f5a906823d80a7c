import GoScaffold.Text.Cut

set_option autoImplicit false

/-! # Reading command lines

The arguments of a command are switches, options with a value, and operands. An option takes what
is attached to it, or else the next argument that does not look like an option itself; a value that
stands apart is looked at only when the next known option or the end is reached. Each switch and
each option stands at most once, unless the option collects its values. -/

namespace GoScaffold

/-- Why a command line is not carried out. -/
inductive UsageError
  /-- Help is asked for. -/
  | help
  /-- The version is asked for. -/
  | version
  /-- There are no arguments at all. -/
  | noArguments
  /-- There are options, but no subcommand. -/
  | missingSubcommand
  | unknownSubcommand (name : String)
  | unknownArgument (argument : String)
  /-- An option has no value, or an empty one where it must not be empty. -/
  | missingValue (option : String)
  /-- A switch, or an option that takes one value, stands twice. -/
  | repeated (option : String)
  /-- A switch has a value. -/
  | unwantedValue (option : String)
  /-- A value is refused. -/
  | refusedValue (option : String) (reason : String)
  deriving DecidableEq, Repr

namespace Usage

/-- An option with a value, or an operand. -/
structure Taker (α : Type) where
  name : String
  /-- Whether another value is one too many. -/
  isGiven : α → Bool
  take : String → α → Except UsageError α

/-- Takes a value. -/
def Taker.put {α : Type} (t : Taker α) (args : α) (v : String) : Except UsageError α :=
  if t.isGiven args then .error (.repeated t.name) else t.take v args

/-- What an option does. -/
inductive Effect (α : Type)
  /-- Shows help. -/
  | help
  /-- Shows the version. -/
  | version
  /-- Logs more. -/
  | louder
  | switch (isOn : α → Bool) (turnOn : α → α)
  | value (taker : Taker α)

/-- An option. -/
structure Flag (α : Type) where
  long : String
  short : Option Char := none
  effect : Effect α

/-- The options that every command has. -/
def commonFlags {α : Type} : List (Flag α) := [
  ⟨"verbose", some 'v', .louder⟩, ⟨"help", some 'h', .help⟩, ⟨"version", some 'V', .version⟩]

end Usage

/-- The arguments that a command knows. -/
structure Usage (α : Type) where
  flags : List (Usage.Flag α) := []
  operand : Option (Usage.Taker α) := none

namespace Usage

variable {α : Type}

/-- All options of a command. -/
def allFlags (u : Usage α) : List (Flag α) := u.flags ++ commonFlags

/-! ## Words -/

/-- An argument by its looks. -/
inductive Word
  /-- `--`, after which all arguments are operands. -/
  | escape
  /-- `--name` or `--name=value` -/
  | long (name : List Char) (value : Option (List Char))
  /-- A dash and one or more letters. -/
  | short (letters : List Char)
  /-- Anything else, a single dash included. -/
  | plain

/-- The looks of an argument. -/
def wordOf : List Char → Word
  | ['-', '-'] => .escape
  | '-' :: '-' :: cs =>
    match Text.splitOnce '=' cs with
    | some (name, value) => .long name (some value)
    | none => .long cs none
  | '-' :: c :: cs => .short (c :: cs)
  | _ => .plain

/-! ## States -/

/-- A value that is not yet taken. -/
inductive Pending (α : Type)
  | settled
  /-- The option has no value so far. -/
  | awaiting (taker : Taker α)
  /-- The value is not looked at so far. -/
  | given (taker : Taker α) (value : String)

/-- What was read of a command line. -/
structure Reading (α : Type) where
  args : α
  /-- How often more logging was asked for, up to 255. -/
  verbose : Nat := 0
  pending : Pending α := .settled
  /-- Whether `--` was read. -/
  escaped : Bool := false

namespace Reading

/-- Takes the value that is pending. -/
def settle (r : Reading α) : Except UsageError (Reading α) :=
  match r.pending with
  | .settled => .ok r
  | .awaiting t => .error (.missingValue t.name)
  | .given t v => (t.put r.args v).map fun args => { r with args := args, pending := .settled }

/-- Carries out an option without value; `name` is how it was written. -/
def act (r : Reading α) (name : String) (effect : Effect α) : Except UsageError (Reading α) :=
  r.settle.bind fun r =>
    match effect with
    | .help => .error .help
    | .version => .error .version
    | .louder => .ok { r with verbose := min 255 (r.verbose + 1) }
    | .switch isOn turnOn =>
      if isOn r.args then .error (.repeated name) else .ok { r with args := turnOn r.args }
    | .value t => .ok { r with pending := .awaiting t }

/-- Takes a value that is attached to its option. -/
def attach (r : Reading α) (t : Taker α) (v : List Char) : Except UsageError (Reading α) :=
  r.settle.bind fun r =>
    (t.put r.args (String.ofList v)).map fun args => { r with args := args }

/-- Reads an operand. -/
def operand (u : Usage α) (r : Reading α) (v : String) : Except UsageError (Reading α) :=
  match u.operand with
  | none => .error (.unknownArgument v)
  | some t => r.settle.map fun r => { r with pending := .given t v }

end Reading

/-! ## Reading -/

/-- Reads the letters after a single dash. A letter whose option takes a value takes all that
follow it, without one equals sign between. -/
def readShort (u : Usage α) (r : Reading α) : List Char → Except UsageError (Reading α)
  | [] => .ok r
  | c :: cs =>
    let name := String.ofList ['-', c]
    match u.allFlags.find? (·.short == some c) with
    | none => .error (.unknownArgument name)
    | some flag =>
      match flag.effect, cs with
      | .value t, '=' :: v => r.attach t v
      | .value t, d :: v => r.attach t (d :: v)
      | effect, _ => (r.act name effect).bind fun r => readShort u r cs

/-- Reads an option by its long name. -/
def readLong (u : Usage α) (r : Reading α) (name : String) (value : Option (List Char)) :
    Except UsageError (Reading α) :=
  match u.allFlags.find? (·.long == name), value with
  | none, _ => .error (.unknownArgument ("--" ++ name))
  | some flag, none => r.act ("--" ++ name) flag.effect
  | some flag, some v =>
    match flag.effect with
    | .value t => r.attach t v
    | _ => .error (.unwantedValue ("--" ++ name))

/-- Reads an argument. -/
def read (u : Usage α) (r : Reading α) (argument : String) : Except UsageError (Reading α) :=
  if r.escaped then r.operand u argument
  else
    match wordOf argument.toList with
    | .escape => .ok { r with escaped := true }
    | .long name value => readLong u r (String.ofList name) value
    | .short letters => readShort u r letters
    | .plain =>
      match r.pending with
      | .awaiting t => .ok { r with pending := .given t argument }
      | _ => r.operand u argument

/-- Reads the arguments of a command; `start` is what stands before any of them. -/
def readAll (u : Usage α) (start : α) (arguments : List String) : Except UsageError (Reading α) :=
  (arguments.foldlM (read u) { args := start }).bind Reading.settle

end Usage

end GoScaffold
