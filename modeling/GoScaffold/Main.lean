import GoScaffold.Command.Basic
import GoScaffold.Command.Help
import Std.Time.Zoned

set_option autoImplicit false

/-! # The program

The commands run on the machine itself: its files, its standard streams and its clock. Programs are
not started from here; asking for one is a fault like any other. -/

namespace GoScaffold.Machine

/-- What is done on the machine, given the time of the start in milliseconds. -/
abbrev MachineM := ReaderT Nat IO

/-- The fault that an error of the system is. -/
def faultOf (e : IO.Error) : Fault :=
  match e with
  | .noFileOrDirectory .. => .noSuchFile
  | .permissionDenied .. => .permissionDenied
  | .alreadyExists .. => .alreadyExists
  | .inappropriateType _ 20 _ => .notDirectory
  | .inappropriateType _ 21 _ => .isDirectory
  | .invalidArgument _ 36 _ => .nameTooLong
  | e => .other (toString e)

/-- What an action gives, or its fault. -/
def attempt {α : Type} (action : IO α) : MachineM (Except Fault α) := do
  match ← action.toBaseIO with
  | .ok a => return .ok a
  | .error e => return .error (faultOf e)

/-- The bytes up to the next line feed, which is included. -/
partial def readLine (input : IO.FS.Stream) (line : Array UInt8) : IO (Array UInt8) := do
  match (← input.read 1)[0]? with
  | none => return line
  | some b => if b = 10 then return line.push b else readLine input (line.push b)

/-- The lines up to the one that is said to be the last. -/
partial def readLines (input : IO.FS.Stream) (isLast : List UInt8 → Bool)
    (lines : Array (List UInt8)) : IO (List (List UInt8)) := do
  let line := (← readLine input #[]).toList
  if line.isEmpty then return lines.toList
  if isLast line then return (lines.push line).toList
  readLines input isLast (lines.push line)

/-- A number with zeros before it. -/
def padded (width n : Nat) : String :=
  let digits := (toString n).toList
  String.ofList (List.replicate (width - digits.length) '0' ++ digits)

/-- The day of the local calendar. -/
def day : IO String := do
  let date ← Std.Time.PlainDate.now
  return padded 4 date.year.toInt.toNat ++ "/" ++ padded 2 date.month.val.toNat ++ "/"
    ++ padded 2 date.day.val.toNat

/-- Milliseconds as seconds with two places. -/
def seconds (milliseconds : Nat) : String :=
  let hundredths := (milliseconds + 5) / 10
  toString (hundredths / 100) ++ "." ++ padded 2 (hundredths % 100)

/-- Whether something is known to hold of what is at a path. -/
def holds (path : String) (test : IO.FS.FileType → Bool) : MachineM Bool := do
  match ← (do return (← ((← IO.currentDir) / path).metadata).type : IO IO.FS.FileType).toBaseIO with
  | .ok type => return test type
  | .error _ => return false

/-- The machine is a host. -/
instance : Host MachineM where
  print text := do (← IO.getStdout).putStr text
  report text := do (← IO.getStderr).putStr text
  typedLines isLast := do
    (← IO.getStdout).flush
    attempt (do readLines (← IO.getStdin) isLast #[])
  isThere path := holds path fun _ => true
  isFile path := holds path (· == .file)
  isDirectory path := holds path (· == .dir)
  readText path := do
    match ← attempt (IO.FS.readBinFile path) with
    | .error fault => return .error fault
    | .ok content =>
      match String.fromUTF8? content with
      | some text => return .ok text
      | none => return .error .notText
  writeText path text := attempt (IO.FS.writeFile path text)
  makeDirectory path := attempt (IO.FS.createDir path)
  names path := attempt (do return (← ((← IO.currentDir) / path).readDir).toList.map (·.fileName))
  run _ _ := return .error .notImplemented
  searchPath := IO.getEnv "PATH"
  currentDirectory := do return (← IO.currentDir).toString
  today := day
  elapsed := do return seconds ((← IO.monoMsNow) - (← read))

end GoScaffold.Machine

/-- Runs a command line. -/
def main (arguments : List String) : IO UInt32 := do
  match GoScaffold.Command.parse arguments with
  | .error e =>
    if e.isAnswer then (← IO.getStdout).putStr e.text else (← IO.getStderr).putStr e.text
    return if e.isAnswer then 0 else 2
  | .ok invocation =>
    let start ← IO.monoMsNow
    (GoScaffold.Command.run invocation.command : GoScaffold.Machine.MachineM UInt32).run start
