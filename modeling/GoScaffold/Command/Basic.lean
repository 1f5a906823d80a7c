import GoScaffold.Command.Generate
import GoScaffold.Command.Stamp
import GoScaffold.Command.Validate

set_option autoImplicit false

/-! # Running commands

A command line that is understood runs to a success or to an error, which is reported last. -/

namespace GoScaffold.Command

variable {m : Type → Type} [Monad m] [Host m]

/-- What the command `version` prints. -/
def versionReport : String :=
  let options : Options := { targets := Targets.all }
  Terminal.header "ddlgen"
    ++ Terminal.entry "Version" "0.1.0"
    ++ Terminal.entry "Binary" "ddlgen-cli"
    ++ Terminal.entry "Build" "release"
    ++ Terminal.gap
    ++ Terminal.part "Targets"
    ++ Text.concat (Target.all.map fun t => Terminal.entry t.name (t.path options))
    ++ Terminal.gap
    ++ Terminal.note
      "Input: MySQL CREATE TABLE statements. Output: Go (database/sql, gin, gorm)."

/-- Carries out a command. -/
def carryOut : Command → Action m Unit
  | .generate args => runGenerate args
  | .validate input => runValidate input
  | .line paths => runStamp paths
  | .version => say versionReport

/-- Runs a command; the result is the exit code of the program. -/
def run (c : Command) : m UInt32 := do
  match ← (carryOut c).run with
  | .ok () => return 0
  | .error e =>
    Host.report (Terminal.failure e.message)
    return 1

end GoScaffold.Command
