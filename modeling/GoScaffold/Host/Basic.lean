import GoScaffold.Host.Fault
import GoScaffold.Path

set_option autoImplicit false

/-! # Hosts

Commands run on a host: something that has files, a standard input, two outputs and a clock. What a
command does is the same on every host. -/

namespace GoScaffold

/-- What commands ask of the system that they run on. -/
class Host (m : Type → Type) where
  /-- Writes to the standard output. -/
  print : String → m Unit
  /-- Writes to the standard error. -/
  report : String → m Unit
  /-- The lines of the standard input, each but the last with its line feed, up to the end or to the
  first line that is said to be the last one. -/
  typedLines : (isLast : List UInt8 → Bool) → m (Except Fault (List (List UInt8)))
  /-- Whether there is anything at a path. -/
  isThere : String → m Bool
  /-- Whether there is a file at a path. -/
  isFile : String → m Bool
  /-- Whether there is a directory at a path. -/
  isDirectory : String → m Bool
  /-- The text of a file. -/
  readText : String → m (Except Fault String)
  /-- Sets the text of a file, which is made if it is not there. -/
  writeText : String → String → m (Except Fault Unit)
  /-- Makes a directory. -/
  makeDirectory : String → m (Except Fault Unit)
  /-- The names in a directory, in any order. -/
  names : String → m (Except Fault (List String))
  /-- Runs a program; the result is its exit code. -/
  run : (program : String) → (arguments : List String) → m (Except Fault Nat)
  /-- The directories that programs are looked for in, as written. -/
  searchPath : m (Option String)
  /-- The path that relative paths start from. -/
  currentDirectory : m String
  /-- The day, as banners name it. -/
  today : m String
  /-- The seconds since the start, with two places. -/
  elapsed : m String

namespace Host

variable {m : Type → Type} [Monad m] [Host m]

/-- Makes the first of some directories, each of which is in the next; the others are made as
needed. The empty path stands for a directory that is there. -/
def makeFirst : List String → m (Except Fault Unit)
  | [] => return .error .noSuchFile
  | path :: above => do
    if path.isEmpty then return .ok ()
    match ← makeDirectory path with
    | .ok () => return .ok ()
    | .error .noSuchFile =>
      match ← makeFirst above with
      | .error fault => return .error fault
      | .ok () => orThere path (← makeDirectory path)
    | .error fault => orThere path (.error fault)
where
  /-- A directory that could not be made may be there. -/
  orThere (path : String) : Except Fault Unit → m (Except Fault Unit)
    | .ok () => return .ok ()
    | .error fault => return if ← isDirectory path then .ok () else .error fault

/-- Makes a directory and all those it is in. -/
def makeDirectories (path : String) : m (Except Fault Unit) := makeFirst (Path.withParents path)

/-- The first file with a name in the directories of the search path. -/
def find? (name : String) : m (Option String) := do
  match ← searchPath with
  | none => return none
  | some directories => firstFile (Path.candidates directories name)
where
  /-- The first path with a file. -/
  firstFile : List String → m (Option String)
    | [] => return none
    | path :: rest => do
      if ← isFile path then return some path else firstFile rest

end Host

end GoScaffold
