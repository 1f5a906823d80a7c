import GoScaffold.Host.Script.Printed
import GoScaffold.Host.Script.Reader
import GoScaffold.Host.Script.Scope
import GoScaffold.Host.Script.Test
import GoScaffold.Host.Session

set_option autoImplicit false

/-! # Running shell scripts

A script runs in a session: it prints, writes files and ends with an exit code. Only the commands
that are part of the shell are there; any other is not found. -/

namespace GoScaffold.Script

/-- Where an output goes: to that of the session, or to the end of what is at a place. -/
inductive Target
  | stream (isError : Bool)
  | place (p : Store.Place)

/-- A script while it runs. -/
structure Run extends Scope where
  session : Session
  output : Target := .stream false
  errors : Target := .stream true
  /-- Whether the script ends when a command fails that nothing looks at. -/
  isStrict : Bool := false

/-- Why what runs is left early. -/
inductive Leave
  | exit (code : Nat)
  /-- So many loops are left, and the outermost of them goes on or not. -/
  | loops (count : Nat) (goesOn : Bool)

/-- What a script does. -/
abbrev RunM := ExceptT Leave (StateM Run)

/-! ## Commands -/

/-- Writes to a target. -/
def Run.write (r : Run) (text : String) : Target → Run
  | .stream isError => { r with session := r.session.emit isError text }
  | .place p =>
    match r.session.store.writeAt p (· ++ text.toUTF8) with
    | .ok store => { r with session := { r.session with store := store } }
    | .error _ => r

/-- Prints a text. -/
def say (text : String) : RunM Unit := modify fun r => r.write text r.output

/-- Complains about something in a line. -/
def complain (line : Nat) (text : String) : RunM Unit := modify fun r =>
  r.write ((r.arguments.head?.getD "") ++ ": " ++ toString line ++ ": " ++ text ++ "\n") r.errors

/-- Sets the exit code. -/
def finish (status : Nat) : RunM Unit := modify fun r => { r with status := status }

/-- Complains about something that ends the script. -/
def giveUp (line : Nat) (text : String) : RunM Unit := do
  complain line text
  throw (.exit 2)

/-- The number that a command may be given. -/
def count? (fields : List String) (otherwise : Nat) : Except String Nat :=
  match fields with
  | [] => .ok otherwise
  | text :: _ =>
    match Text.number? 10 text.toList with
    | some n => .ok n
    | none => .error ("Illegal number: " ++ text)

/-- Sets variables, each after those before it. -/
def setVariables (bindings : List (String × Word)) : RunM Unit :=
  bindings.forM fun (name, w) => modify fun r =>
    { r with bindings := (name, r.text w) :: r.bindings }

/-- Sets options and arguments. -/
def setUp : List String → RunM Unit
  | [] => return
  | "--" :: fields => modify fun r => { r with arguments := r.arguments.take 1 ++ fields }
  | field :: fields =>
    match field.toList with
    | '-' :: letters => do
      if letters.contains 'e' then modify fun r => { r with isStrict := true }
      setUp fields
    | '+' :: letters => do
      if letters.contains 'e' then modify fun r => { r with isStrict := false }
      setUp fields
    | _ => modify fun r => { r with arguments := r.arguments.take 1 ++ field :: fields }

/-- Runs a command of the shell. -/
def runCommand (line : Nat) (command : String) (fields : List String) : RunM Unit := do
  let r ← get
  match command, fields with
  | "echo", _ => do
    say (echoed fields)
    finish 0
  | "printf", format :: rest => do
    say (String.ofList (printed (unescaped false 0 format.toList).1 (rest.length + 1) rest))
    finish 0
  | "printf", [] => do
    complain line "printf: usage: printf format [arg ...]"
    finish 2
  | "true", _ => finish 0
  | ":", _ => finish 0
  | "false", _ => finish 1
  | "test", _ => answer "test" fields
  | "[", _ =>
    if fields.getLast? = some "]" then answer "[" fields.dropLast
    else do
      complain line "[: missing ]"
      finish 2
  | "exit", _ => leave r "exit" (.exit ·) r.status
  | "return", _ => leave r "return" (.exit ·) r.status
  | "break", _ => leave r "break" (.loops · false) 1
  | "continue", _ => leave r "continue" (.loops · true) 1
  | "shift", _ =>
    match count? fields 1 with
    | .error text => giveUp line ("shift: " ++ text)
    | .ok n =>
      if r.arguments.length ≤ n then giveUp line "shift: can't shift that many"
      else
        set { r with arguments := r.arguments.take 1 ++ r.arguments.drop (n + 1), status := 0 }
  | "set", _ => do
    setUp fields
    finish 0
  | "unset", _ =>
    set { r with bindings := r.bindings.filter (fun b => !fields.contains b.1), status := 0 }
  | "export", _ => assign
  | "readonly", _ => assign
  | "exec", [] => finish 0
  | "cd", path :: _ =>
    match r.session.store.find r.session.directory path with
    | .ok (place, .directory) =>
      set { r with session := { r.session with directory := place }, status := 0 }
    | _ => do
      complain line ("cd: can't cd to " ++ path)
      finish 2
  | _, _ =>
    if command.toList.contains '/' && (r.session.lookup? command).isSome then do
      complain line (command ++ ": Permission denied")
      finish 126
    else do
      complain line (command ++ ": not found")
      finish 127
where
  /-- The answer of a test as an exit code. -/
  answer (name : String) (fields : List String) : RunM Unit := do
    match tested (← get).session (fields.length + 1) fields with
    | .ok yes => finish (if yes then 0 else 1)
    | .error text => do
      complain line (name ++ ": " ++ text)
      finish 2
  /-- Sets the variables that fields name with a value. -/
  assign : RunM Unit := do
    fields.forM fun field =>
      match Text.splitOnce '=' field.toList with
      | some (name, value) => modify fun r =>
        { r with bindings := (String.ofList name, String.ofList value) :: r.bindings }
      | none => return
    finish 0
  /-- Leaves what runs. -/
  leave (r : Run) (name : String) (how : Nat → Leave) (otherwise : Nat) : RunM Unit := do
    match count? fields otherwise with
    | .error text => giveUp line (name ++ ": " ++ text)
    | .ok n => do
      finish 0
      if name = "break" ∨ name = "continue" then throw (how n)
      set { r with status := n % 256 }
      throw (how (n % 256))

/-- Opens sinks, one after the other; the result says which path could not be opened, and why. -/
def openSinks : List (Bool × Sink) → RunM (Option (String × Fault))
  | [] => return none
  | (isError, sink) :: rest => do
    let r ← get
    match sink with
    | .stream toError =>
      let target := if toError then r.errors else r.output
      set (if isError then { r with errors := target } else { r with output := target })
      openSinks rest
    | .file word append =>
      let path := r.text word
      let keep (old : ByteArray) : ByteArray := if append then old else ByteArray.empty
      let opened : Except Fault (Store.Place × Store) := do
        let place ← r.session.store.locate r.session.directory path
        return (place, ← r.session.store.writeAt place keep)
      match opened with
      | .error fault => return some (path, fault)
      | .ok (place, store) => do
        let r := { r with session := { r.session with store := store } }
        set (if isError then { r with errors := .place place } else { r with output := .place place })
        openSinks rest

/-- The wording of a fault that a file was not opened for. -/
def refusal : Fault → String
  | .noSuchFile => "Directory nonexistent"
  | .notDirectory => "Directory nonexistent"
  | .isDirectory => "Is a directory"
  | .nameTooLong => "File name too long"
  | _ => "Permission denied"

/-- The commands that end a script when their sinks cannot be opened. -/
def specials : List String :=
  [":", "break", "continue", "eval", "exec", "exit", "export", "readonly", "return", "set", "shift",
    "times", "trap", "unset"]

/-- The name of the command that a statement is. -/
def Run.commandOf? (r : Run) : Statement → Option String
  | .command _ _ words => (r.fields words).head?
  | _ => none

/-! ## Statements -/

/-- Ends a strict script after a statement that failed, unless its end is looked at. -/
def check (isLooked : Bool) : RunM Unit := do
  let r ← get
  if r.isStrict && !isLooked && r.status != 0 then throw (.exit r.status)

mutual

/-- Runs statements one after another. -/
def runAll : (fuel : Nat) → (isLooked : Bool) → List Statement → RunM Unit
  | 0, _, _ => throw (.exit 2)
  | _ + 1, _, [] => return
  | fuel + 1, isLooked, first :: rest => do
    runStatement fuel isLooked first
    runAll fuel isLooked rest

/-- Runs a statement; `isLooked` says that another one depends on how it ends. -/
def runStatement : (fuel : Nat) → (isLooked : Bool) → Statement → RunM Unit
  | 0, _, _ => throw (.exit 2)
  | fuel + 1, isLooked, statement =>
    match statement with
    | .command line bindings words => do
      let r ← get
      match r.fields words with
      | [] => do
        setVariables bindings
        finish 0
      | command :: fields => do
        setVariables bindings
        runCommand line command fields
        if !bindings.isEmpty && !specials.contains command then
          modify fun after => { after with bindings := r.bindings }
      check isLooked
    | .redirected line sinks inner => do
      let before ← get
      match ← openSinks sinks with
      | some (path, fault) =>
        modify fun r => { r with output := before.output, errors := before.errors }
        complain line ("cannot create " ++ path ++ ": " ++ refusal fault)
        finish 2
        if ((before.commandOf? inner).map specials.contains).getD false then throw (.exit 2)
        check isLooked
      | none =>
        runStatement fuel isLooked inner
        if before.commandOf? inner != some "exec" then
          modify fun r => { r with output := before.output, errors := before.errors }
    | .both first second => do
      runStatement fuel true first
      if (← get).status = 0 then runStatement fuel isLooked second
    | .either first second => do
      runStatement fuel true first
      if (← get).status ≠ 0 then runStatement fuel isLooked second
    | .negated inner => do
      runStatement fuel true inner
      modify fun r => { r with status := if r.status = 0 then 1 else 0 }
    | .choice condition yes no => do
      runAll fuel true condition
      if (← get).status = 0 then runAll fuel isLooked yes
      else do
        finish 0
        runAll fuel isLooked no
    | .repeated wanted condition body => repeatBody fuel isLooked wanted condition body 0
    | .loop variableName words body => do
      let fields := (← get).fields words
      finish 0
      eachField fuel isLooked variableName body fields
    | .cases subject branches => do
      let r ← get
      let text := (r.text subject).toList
      let fits (w : Word) : Bool := matchesAll (marksOf (r.bits false w)) text
      finish 0
      match branches.find? fun b => b.1.any fits with
      | some (_, body) => runAll fuel isLooked body
      | none => return
    | .group false body => runAll fuel isLooked body
    | .group true body => do
      let before ← get
      let ending ← tryCatch (do runAll fuel isLooked body; return none) fun e => return some e
      modify fun r =>
        { before with
          session := { r.session with directory := before.session.directory }
          status := match ending with
            | some (.exit code) => code
            | _ => r.status }
      check isLooked

/-- Runs the body of a loop once; the result says whether the loop goes on. -/
def runBody : (fuel : Nat) → (isLooked : Bool) → List Statement → RunM Bool
  | 0, _, _ => throw (.exit 2)
  | fuel + 1, isLooked, body =>
    tryCatch (do runAll fuel isLooked body; return true) fun e =>
      match e with
      | .loops (n + 2) goesOn => throw (.loops (n + 1) goesOn)
      | .loops _ goesOn => return goesOn
      | e => throw e

/-- Runs the body of a loop for each of some fields. -/
def eachField : (fuel : Nat) → (isLooked : Bool) → (variableName : String) → List Statement →
    List String → RunM Unit
  | 0, _, _, _, _ => throw (.exit 2)
  | _ + 1, _, _, _, [] => return
  | fuel + 1, isLooked, variableName, body, field :: rest => do
    modify fun r => { r with bindings := (variableName, field) :: r.bindings }
    if ← runBody fuel isLooked body then eachField fuel isLooked variableName body rest

/-- Runs the body of a loop while its condition ends as wanted; `status` is that of the last
round. -/
def repeatBody : (fuel : Nat) → (isLooked wanted : Bool) → (condition body : List Statement) →
    (status : Nat) → RunM Unit
  | 0, _, _, _, _, _ => throw (.exit 2)
  | fuel + 1, isLooked, wanted, condition, body, status => do
    let goesOn ← runBody fuel true condition
    if goesOn && decide ((← get).status = 0) == wanted then
      if ← runBody fuel isLooked body then
        repeatBody fuel isLooked wanted condition body (← get).status
    else finish status

end

/-- How long scripts may run: so many statements may be in each other or follow each other. -/
def patience : Nat := 20000

/-- Runs a script: its exit code, and the session after it. -/
def run (s : Session) (text : String) (isStrict : Bool) (arguments : List String) : Nat × Session :=
  match parse? text with
  | none => (2, s.emit true (arguments.head?.getD "" ++ ": Syntax error\n"))
  | some statements =>
    let start : Run := {
      session := s, arguments := arguments, isStrict := isStrict
      bindings := [("PATH", s.searchPath.getD "")] }
    let (ending, r) := (runAll patience false statements).run.run start
    let session := { r.session with directory := s.directory }
    match ending with
    | .error (.exit code) => (code, session)
    | _ => (r.status, session)

end GoScaffold.Script
