import GoScaffold.Host.Basic
import GoScaffold.Host.Script.Run
import GoScaffold.Text.Blank

set_option autoImplicit false

/-! # Programs of sessions

The programs of a session are files whose first line names what they are run by. A session that can
run them is a host. -/

namespace GoScaffold.Session

/-- What runs a program. -/
inductive Interpreter
  | shell (isStrict : Bool)
  /-- The first program with this name on the search path. -/
  | named (name : String)
  /-- Something that only ends with an exit code. -/
  | constant (code : Nat)
  | missing

/-- The interpreter by the words of the first line. -/
def interpreter : List String → Interpreter
  | [] => .missing
  | path :: options =>
    if ["/bin/sh", "/usr/bin/sh", "/bin/bash", "/usr/bin/bash", "/bin/dash"].contains path then
      .shell (options.any fun o => o.toList.head? == some '-' && o.toList.contains 'e')
    else if path = "/bin/env" ∨ path = "/usr/bin/env" then .named (Text.join " " options)
    else if path = "/bin/true" ∨ path = "/usr/bin/true" then .constant 0
    else if path = "/bin/false" ∨ path = "/usr/bin/false" then .constant 1
    else .missing

/-- The directories of the search path. -/
def searched (s : Session) : List String :=
  (Text.splitWhere (· == ':') (s.searchPath.getD "").toList).map String.ofList

/-- Runs the content of a program. -/
def interpret (s : Session) (text : String) (arguments : List String) :
    Except Fault (Nat × Session) :=
  match text.toList with
  | '#' :: '!' :: rest =>
    let first := rest.takeWhile (· != '\n')
    let words := (Text.splitWhere (fun c => c == ' ' || c == '\t') first).filter (!·.isEmpty)
    match interpreter (words.map String.ofList) with
    | .shell isStrict => .ok (Script.run s text isStrict arguments)
    | .constant code => .ok (code, s)
    | .named name =>
      if ["sh", "bash"].contains name && s.searched.any ["/bin", "/usr/bin"].contains then
        .ok (Script.run s text false arguments)
      else
        .ok (127, s.emit true ("/usr/bin/env: '" ++ name ++ "': No such file or directory\n"))
    | .missing => if words.isEmpty then .error .notProgram else .error .noSuchFile
  | _ => .error .notProgram

/-- Runs the program at a path. -/
def runAt (s : Session) (path : String) (arguments : List String) : Except Fault (Nat × Session) :=
  (s.store.find s.directory path).bind fun (_, e) =>
    match e with
    | .file content true =>
      (textOf content).mapError (fun _ => Fault.notProgram) |>.bind fun text =>
        s.interpret text (path :: arguments)
    | _ => .error .permissionDenied

/-- The first run along some paths that does not fail for want of a program. A program that may not
be run is passed over, but told of at the end. -/
def runFirst (s : Session) (arguments : List String) (fault : Fault) :
    List String → Except Fault (Nat × Session)
  | [] => .error fault
  | path :: rest =>
    match s.runAt path arguments with
    | .error .permissionDenied => runFirst s arguments .permissionDenied rest
    | .error .noSuchFile => runFirst s arguments fault rest
    | .error .notDirectory => runFirst s arguments fault rest
    | r => r

/-- Runs a program: the one at a path, or one from the search path if there is no slash in it. -/
def run (s : Session) (program : String) (arguments : List String) : Except Fault (Nat × Session) :=
  if program.toList.contains '/' then s.runAt program arguments
  else s.runFirst arguments .noSuchFile (Path.candidates (s.searchPath.getD "") program)

/-- A session is a host. -/
instance : Host (StateM Session) where
  print text := modify fun s => s.emit false text
  report text := modify fun s => s.emit true text
  typedLines isLast := modifyGet fun s =>
    let (taken, left) := takeLines isLast s.input
    (.ok taken, { s with input := left })
  isThere path := return ((← get).lookup? path).isSome
  isFile path := return (← get).hasFile path
  isDirectory path := return (← get).hasDirectory path
  readText path := do
    let s ← get
    return (s.store.read s.directory path).bind textOf
  writeText path text := modifyGet fun s =>
    s.changeStore (s.store.write s.directory path fun _ => text.toUTF8)
  makeDirectory path := modifyGet fun s => s.changeStore (s.store.makeDirectory s.directory path)
  names path := do
    let s ← get
    return s.store.names s.directory path
  run program arguments := modifyGet fun s =>
    match s.run program arguments with
    | .ok (code, s) => (.ok code, s)
    | .error fault => (.error fault, s)
  searchPath := return (← get).searchPath
  currentDirectory := return "/" ++ Text.join "/" (← get).directory
  today := return (← get).today
  elapsed := return (← get).elapsed

end GoScaffold.Session
