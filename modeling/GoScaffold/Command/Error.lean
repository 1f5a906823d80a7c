import GoScaffold.Host.Basic
import GoScaffold.Command.Terminal
import GoScaffold.Input.Typed
import GoScaffold.Schema.Basic

set_option autoImplicit false

/-! # Errors of commands

A command that fails says why and ends; what it printed before stays. -/

namespace GoScaffold

/-- Why a command fails. -/
inductive CommandError
  /-- Files or the standard input cannot be read or written. -/
  | system (fault : Fault)
  | missingConfig (path : String)
  /-- The configuration file has a syntax error, or a setting of the wrong kind. -/
  | invalidConfig
  | missingInput (path : String)
  /-- No table is declared. -/
  | noTables
  /-- Some declarations do not parse. -/
  | skipped (count : Nat)
  deriving DecidableEq, Repr

/-- The wording of an error. -/
def CommandError.message : CommandError → String
  | system fault => "IO error: " ++ fault.message
  | missingConfig path => "Configuration error: Config file not found: " ++ path
  | invalidConfig => "Configuration error: Failed to parse TOML:"
  | missingInput path => "Configuration error: Input file not found: " ++ path
  | noTables => "Schema error: No table declarations found"
  | skipped count => "Schema error: " ++ toString count ++ " statement(s) failed to parse"

namespace Command

variable {m : Type → Type} [Monad m] [Host m]

/-- What a command does on a host. -/
abbrev Action (m : Type → Type) := ExceptT CommandError m

/-- Writes to the standard output. -/
def say (text : String) : Action m Unit := ExceptT.lift (Host.print text)

/-- Writes to the standard error. -/
def complain (text : String) : Action m Unit := ExceptT.lift (Host.report text)

/-- What a request gives; a fault ends the command. -/
def need {α : Type} (request : m (Except Fault α)) : Action m α := do
  match ← ExceptT.lift request with
  | .ok a => return a
  | .error fault => throw (.system fault)

/-- The text of the schema: that of a file, or what is typed if none is given. -/
def readInput (input : Option String) : Action m String := do
  match input with
  | some path =>
    if !(← ExceptT.lift (Host.isThere path)) then throw (.missingInput path)
    need (Host.readText path)
  | none =>
    let lines ← need (Host.typedLines Input.isLast)
    need (pure (Input.typedText lines))

/-- Reports what is wrong with a schema: first what was skipped, then the warnings. -/
def reportProblems (s : Schema) : Action m Unit := do
  s.skipped.forM fun e => complain (Terminal.warning ("skipped: " ++ e.message))
  s.warnings.forM fun w => complain (Terminal.warning w.message)

end Command

end GoScaffold
