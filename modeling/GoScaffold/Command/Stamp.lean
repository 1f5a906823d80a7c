import GoScaffold.Command.Error
import GoScaffold.Go.Marker

set_option autoImplicit false

/-! # The command `line`

The markers in Go files below some paths are stamped. Directories are searched before any file is
changed, in the order of the names in them. -/

namespace GoScaffold.Command

variable {m : Type → Type} [Monad m] [Host m]

/-- The path of a file as markers name it: with slashes only, and without `./` at its front. -/
def displayPath (path : String) : String :=
  let slashed := path.toList.map fun c => if c = '\\' then '/' else c
  String.ofList ((Text.dropPrefix? ['.', '/'] slashed).getD slashed)

/-- How deep directories are searched. Paths of systems are shorter than this. -/
def searchDepth : Nat := 4096

/-- The Go files at or below a path. -/
def goFiles : (depth : Nat) → String → Action m (List String)
  | 0, _ => throw (.system .nameTooLong)
  | depth + 1, path => do
    if ← ExceptT.lift (Host.isFile path) then
      return if Path.extension? path == some "go" then [path] else []
    else
      let names ← need (Host.names path)
      let sorted := names.mergeSort fun a b => decide (a ≤ b)
      let found ← sorted.mapM fun name => goFiles depth (Path.join path name)
      return found.flatten

/-- Stamps the markers of a file; the result says whether it changed. -/
def stampFile (path : String) : Action m Bool := do
  let text ← need (Host.readText path)
  let stamped := Go.Marker.stamp text (displayPath path)
  if stamped == text then return false
  need (Host.writeText path stamped)
  return true

/-- Stamps files one after another, and counts those that changed. -/
def stampAll : List String → Action m Nat
  | [] => return 0
  | path :: rest => do
    let changed ← stampFile path
    if changed then say (Terminal.item (displayPath path))
    let count ← stampAll rest
    return if changed then count + 1 else count

/-- Stamps the Go files below some paths. -/
def runStamp (paths : List String) : Action m Unit := do
  let files := (← paths.mapM (goFiles searchDepth)).flatten
  let count ← stampAll files
  say (Terminal.success
    ("Stamped " ++ toString count ++ " of " ++ toString files.length ++ " Go files"))

end GoScaffold.Command
