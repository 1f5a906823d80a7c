import GoScaffold.Artifact.Basic
import GoScaffold.Command.Error
import GoScaffold.Command.Plan

set_option autoImplicit false

/-! # The command `generate`

Artifacts are printed, or written below a directory and formatted there. Formatting is a courtesy:
when it fails, the files stay as they are and the command goes on. -/

namespace GoScaffold.Command

variable {m : Type → Type} [Monad m] [Host m]

/-- The program that formats Go files. -/
def formatter : String := "gofmt"

/-- The configuration: that of a file which is named, or of the usual file if it is there. -/
def findConfig (explicit : Option String) : Action m Config := do
  match explicit with
  | some path =>
    if !(← ExceptT.lift (Host.isThere path)) then throw (.missingConfig path)
    load path
  | none =>
    let path := Path.join (← ExceptT.lift Host.currentDirectory) Config.fileName
    if ← ExceptT.lift (Host.isThere path) then load path else return {}
where
  /-- The configuration in a file. -/
  load (path : String) : Action m Config := do
    let text ← need (Host.readText path)
    match Config.parse? text with
    | some config => return config
    | none => throw .invalidConfig

/-- Artifacts as they are printed: each below its path, unless there is only one. -/
def printed (artifacts : List Artifact) : String :=
  match artifacts with
  | [a] => a.content
  | _ => Text.join "\n" (artifacts.map fun a => "==> " ++ a.path ++ " <==\n" ++ a.content)

/-- Writes artifacts below a directory, one after another; the result is where they went. -/
def writeAll (root : String) (artifacts : List Artifact) : Action m (List String) :=
  artifacts.mapM fun a => do
    let path := Path.join root a.path
    if let some parent := Path.parent? path then need (Host.makeDirectories parent)
    need (Host.writeText path a.content)
    return path

/-- Formats Go files, if there are any and the formatter is there. -/
def formatFiles (files : List String) : Action m Unit := do
  if files.isEmpty then return
  match ← ExceptT.lift (Host.find? formatter) with
  | none => say (Terminal.note "  gofmt not found, files left as generated")
  | some program =>
    match ← ExceptT.lift (Host.run program ("-w" :: files)) with
    | .ok 0 => return
    | .ok code => complain (Terminal.warning ("gofmt exited with exit status: " ++ toString code))
    | .error fault => complain (Terminal.warning ("failed to run gofmt: " ++ fault.message))

/-- Writes artifacts below a directory, and reports on it. -/
def writeAndReport (input : Option String) (tables : Nat) (format : Bool) (output : String)
    (artifacts : List Artifact) : Action m Unit := do
  say (Terminal.header "Generate Go Code")
  if let some path := input then say (Terminal.entry "Input" path)
  say (Terminal.entry "Output" output)
  say (Terminal.entry "Tables" (toString tables))
  say Terminal.gap
  say (Terminal.step 1 2 "Writing files...")
  let written ← writeAll output artifacts
  say (Terminal.step 2 2 "Formatting...")
  if format then formatFiles (written.filter fun path => Path.extension? path == some "go")
  else say (Terminal.note "  skipped")
  say Terminal.gap
  say (Terminal.part "Generated files")
  let here ← ExceptT.lift Host.currentDirectory
  written.forM fun path => say (Terminal.item ((Path.below? here path).getD path))
  say Terminal.gap
  say (Terminal.success ("Generated " ++ toString written.length ++ " files in "
    ++ (← ExceptT.lift Host.elapsed) ++ "s"))

/-- The part of a text that is to be read. -/
def selected (range : Option LineRange) (text : String) : String :=
  match range with
  | some range => Text.onChars range.select text
  | none => text

/-- Renders the tables of a schema. -/
def runGenerate (args : GenerateArguments) : Action m Unit := do
  let plan := Plan.resolve args (← findConfig args.config)
  let schema := Schema.parse (selected args.lines (← readInput args.input))
  reportProblems schema
  if schema.tables.isEmpty then throw .noTables
  let artifacts := GoScaffold.generate schema.tables plan.options (← ExceptT.lift Host.today)
  match plan.output with
  | none => say (printed artifacts)
  | some output => writeAndReport args.input schema.tables.length plan.format output artifacts

end GoScaffold.Command
