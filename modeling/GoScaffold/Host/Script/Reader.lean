import GoScaffold.Host.Script.Token

set_option autoImplicit false

/-! # Reading shell scripts

Statements are read from tokens. Certain words have a meaning where a command could start; those
that close a statement end the list before them. -/

namespace GoScaffold.Script

/-- The word at the front, if it is one without quotes and parameters. -/
def plainWord? : Tokens → Option String
  | (_, .word [.literal text false]) :: _ => some text
  | _ => none

/-- What follows a word that has to be there. -/
def after? (text : String) (ts : Tokens) : Option Tokens :=
  if plainWord? ts = some text then some ts.tail else none

/-- The words that close what another one opened. -/
def closers : List String := ["then", "else", "elif", "fi", "do", "done", "esac", "\x7d"]

/-- Whether no statement starts here. -/
def isOver : Tokens → Bool
  | [] => true
  | (_, .closing) :: _ => true
  | (_, .doubleSemicolon) :: _ => true
  | ts => (plainWord? ts).any closers.contains

/-- The words that open a statement with others in it. -/
def openers : List String := ["if", "while", "until", "for", "case", "\x7b"]

/-- Whether a statement with others in it starts here. -/
def opensCompound : Tokens → Bool
  | (_, .opening) :: _ => true
  | ts => (plainWord? ts).any openers.contains

/-- The tokens after line ends. -/
def skipLines (ts : Tokens) : Tokens :=
  ts.dropWhile fun (_, t) =>
    match t with
    | .newline => true
    | _ => false

/-- The tokens after line ends and semicolons. -/
def skipSeparators (ts : Tokens) : Tokens :=
  ts.dropWhile fun (_, t) =>
    match t with
    | .newline => true
    | .semicolon => true
    | _ => false

/-- The name and the value, if a word sets a variable. -/
def binding? : Word → Option (String × Word)
  | .literal text false :: rest =>
    (Text.splitOnce '=' text.toList).bind fun (name, value) =>
      if isName name then
        let rest := if value.isEmpty then rest else .literal (String.ofList value) false :: rest
        some (String.ofList name, rest)
      else none
  | _ => none

/-- A sink at the front. -/
def sink? : Tokens → Option ((Bool × Sink) × Tokens)
  | (_, .redirect isError append) :: (_, .word path) :: rest =>
    some ((isError, .file path append), rest)
  | (_, .duplicate isError toError) :: rest => some ((isError, .stream toError), rest)
  | _ => none

/-- The sinks at the front; `fuel` bounds how many. -/
def sinks : (fuel : Nat) → Tokens → List (Bool × Sink) × Tokens
  | 0, ts => ([], ts)
  | fuel + 1, ts =>
    match sink? ts with
    | some (sink, rest) =>
      let (more, rest) := sinks fuel rest
      (sink :: more, rest)
    | none => ([], ts)

/-- A statement with its sinks, if there are any. -/
def redirect (line : Nat) (sinks : List (Bool × Sink)) (s : Statement) : Statement :=
  if sinks.isEmpty then s else .redirected line sinks s

/-- The words and the sinks of a command; `fuel` bounds how many. -/
def parts : (fuel : Nat) → Tokens → (List Word × List (Bool × Sink)) × Tokens
  | 0, ts => (([], []), ts)
  | fuel + 1, ts =>
    match ts, sink? ts with
    | (_, .word w) :: rest, _ =>
      let ((ws, sinks), rest) := parts fuel rest
      ((w :: ws, sinks), rest)
    | _, some (sink, rest) =>
      let ((ws, sinks), rest) := parts fuel rest
      ((ws, sink :: sinks), rest)
    | _, none => (([], []), ts)

/-- A command without statements in it. -/
def simple? (ts : Tokens) : Option (Statement × Tokens) := do
  let (line, _) :: _ := ts | none
  let ((words, sinks), rest) := parts ts.length ts
  if words.isEmpty && sinks.isEmpty then none
  let bindings := (words.takeWhile fun w => (binding? w).isSome).filterMap binding?
  return (redirect line sinks (.command line bindings (words.drop bindings.length)), rest)

/-- The words of a loop: those after `in`, or all arguments. -/
def loopWords (ts : Tokens) : List Word × Tokens :=
  match after? "in" (skipLines ts) with
  | some rest =>
    let words := rest.map fun (_, t) =>
      match t with
      | .word w => some w
      | _ => none
    let taken := (words.takeWhile Option.isSome).filterMap id
    (taken, rest.drop taken.length)
  | none => ([[.parameter "@" .value true]], ts)

/-- The patterns of a branch, up to the parenthesis after them. -/
def patterns? : Tokens → Option (List Word × Tokens)
  | (_, .word w) :: (_, .bar) :: rest => (patterns? rest).map fun (ws, rest) => (w :: ws, rest)
  | (_, .word w) :: (_, .closing) :: rest => some ([w], rest)
  | _ => none

mutual

/-- Statements up to the end or to what closes them. -/
def list? : (fuel : Nat) → Tokens → Option (List Statement × Tokens)
  | 0, _ => none
  | fuel + 1, ts => do
    let ts := skipLines ts
    if isOver ts then return ([], ts)
    let (first, rest) ← link? fuel ts
    let (chain, rest) ← chain? fuel first rest
    match rest with
    | (_, .newline) :: rest =>
      let (more, rest) ← list? fuel rest
      return (chain :: more, rest)
    | (_, .semicolon) :: rest =>
      let (more, rest) ← list? fuel rest
      return (chain :: more, rest)
    | rest => return ([chain], rest)

/-- One statement or more up to what closes them. -/
def body? : (fuel : Nat) → Tokens → Option (List Statement × Tokens)
  | 0, _ => none
  | fuel + 1, ts => do
    let (first :: more, rest) ← list? fuel ts | none
    return (first :: more, rest)

/-- A statement with those that `&&` and `||` join to it. -/
def chain? : (fuel : Nat) → Statement → Tokens → Option (Statement × Tokens)
  | 0, _, _ => none
  | fuel + 1, first, ts =>
    match ts with
    | (_, .andThen) :: rest => do
      let (second, rest) ← link? fuel (skipLines rest)
      chain? fuel (.both first second) rest
    | (_, .orElse) :: rest => do
      let (second, rest) ← link? fuel (skipLines rest)
      chain? fuel (.either first second) rest
    | rest => some (first, rest)

/-- One statement, perhaps negated. -/
def link? : (fuel : Nat) → Tokens → Option (Statement × Tokens)
  | 0, _ => none
  | fuel + 1, ts =>
    match after? "!" ts with
    | some rest => (statement? fuel rest).map fun (s, rest) => (.negated s, rest)
    | none => statement? fuel ts

/-- One statement with its sinks. -/
def statement? : (fuel : Nat) → Tokens → Option (Statement × Tokens)
  | 0, _ => none
  | _ + 1, [] => none
  | fuel + 1, (line, t) :: ts => do
    if isOver ((line, t) :: ts) then none
    match compound? fuel ((line, t) :: ts) with
    | some (s, rest) =>
      let (found, rest) := sinks rest.length rest
      return (redirect line found s, rest)
    | none =>
      if opensCompound ((line, t) :: ts) then none else simple? ((line, t) :: ts)

/-- A statement that holds others. -/
def compound? : (fuel : Nat) → Tokens → Option (Statement × Tokens)
  | 0, _ => none
  | fuel + 1, ts =>
    match ts, plainWord? ts with
    | (_, .opening) :: rest, _ => do
      let (body, rest) ← body? fuel rest
      let (_, .closing) :: rest := rest | none
      return (.group true body, rest)
    | _ :: rest, some "\x7b" => do
      let (body, rest) ← body? fuel rest
      return (.group false body, ← after? "\x7d" rest)
    | _ :: rest, some "if" => clauses? fuel rest
    | _ :: rest, some "while" => repetition? fuel true rest
    | _ :: rest, some "until" => repetition? fuel false rest
    | _ :: rest, some "for" => do
      let (_, .word [.literal name false]) :: rest := rest | none
      let (words, rest) := loopWords rest
      let (body, rest) ← doGroup? fuel (skipSeparators rest)
      return (.loop name words body, rest)
    | _ :: rest, some "case" => do
      let (_, .word subject) :: rest := rest | none
      let (branches, rest) ← branches? fuel (← after? "in" (skipLines rest))
      return (.cases subject branches, rest)
    | _, _ => none

/-- The condition of a choice and what follows it, up to `fi`. -/
def clauses? : (fuel : Nat) → Tokens → Option (Statement × Tokens)
  | 0, _ => none
  | fuel + 1, ts => do
    let (condition, rest) ← body? fuel ts
    let (yes, rest) ← body? fuel (← after? "then" rest)
    match plainWord? rest with
    | some "fi" => return (.choice condition yes [], rest.tail)
    | some "elif" =>
      let (no, rest) ← clauses? fuel rest.tail
      return (.choice condition yes [no], rest)
    | some "else" =>
      let (no, rest) ← body? fuel rest.tail
      return (.choice condition yes no, ← after? "fi" rest)
    | _ => none

/-- A loop with a condition. -/
def repetition? : (fuel : Nat) → (wanted : Bool) → Tokens → Option (Statement × Tokens)
  | 0, _, _ => none
  | fuel + 1, wanted, ts => do
    let (condition, rest) ← body? fuel ts
    let (body, rest) ← doGroup? fuel rest
    return (.repeated wanted condition body, rest)

/-- The body of a loop. -/
def doGroup? : (fuel : Nat) → Tokens → Option (List Statement × Tokens)
  | 0, _ => none
  | fuel + 1, ts => do
    let (body, rest) ← body? fuel (← after? "do" ts)
    return (body, ← after? "done" rest)

/-- Branches up to `esac`. -/
def branches? : (fuel : Nat) → Tokens → Option (List (List Word × List Statement) × Tokens)
  | 0, _ => none
  | fuel + 1, ts => do
    let ts := skipLines ts
    if plainWord? ts = some "esac" then return ([], ts.tail)
    let ts := match ts with
      | (_, .opening) :: rest => rest
      | ts => ts
    let (patterns, rest) ← patterns? ts
    let (body, rest) ← list? fuel rest
    match rest with
    | (_, .doubleSemicolon) :: rest =>
      let (more, rest) ← branches? fuel rest
      return ((patterns, body) :: more, rest)
    | rest => return ([(patterns, body)], ← after? "esac" rest)

end

/-- The statements of a script. -/
def parse? (text : String) : Option (List Statement) := do
  let cs := text.toList
  let ts ← tokens? (cs.length + 1) 1 cs
  let (statements, rest) ← list? (8 * ts.length + 8) ts
  if rest.isEmpty then return statements else none

end GoScaffold.Script
