import GoScaffold.Host.Store

set_option autoImplicit false

/-! # Sessions

A session is a host in memory: a store, a directory in it, a standard input, and what was written
so far. -/

namespace GoScaffold

/-- A host in memory. -/
structure Session where
  store : Store := {}
  /-- Where relative paths start. -/
  directory : Store.Place := []
  /-- The lines of the standard input that are not read yet. -/
  input : List (List UInt8) := []
  output : String := ""
  errors : String := ""
  searchPath : Option String := none
  today : String
  elapsed : String

namespace Session

/-- Writes to one of the two outputs. -/
def emit (s : Session) (toError : Bool) (text : String) : Session :=
  if toError then { s with errors := s.errors ++ text } else { s with output := s.output ++ text }

/-- The session with a changed store, if the change succeeds. -/
def changeStore (s : Session) (r : Except Fault Store) : Except Fault Unit × Session :=
  match r with
  | .ok store => (.ok (), { s with store := store })
  | .error fault => (.error fault, s)

/-- What a path leads to. -/
def lookup? (s : Session) (path : String) : Option Store.Entry :=
  ((s.store.find s.directory path).map (·.2)).toOption

/-- Whether there is a file at a path. -/
def hasFile (s : Session) (path : String) : Bool :=
  match s.lookup? path with
  | some (.file _ _) => true
  | _ => false

/-- Whether there is a directory at a path. -/
def hasDirectory (s : Session) (path : String) : Bool :=
  match s.lookup? path with
  | some .directory => true
  | _ => false

/-- The text of some bytes. -/
def textOf (content : ByteArray) : Except Fault String :=
  match String.fromUTF8? content with
  | some text => .ok text
  | none => .error .notText

/-- The first lines of the input, up to the last one that is wanted, and those that follow. -/
def takeLines (isLast : List UInt8 → Bool) :
    List (List UInt8) → List (List UInt8) × List (List UInt8)
  | [] => ([], [])
  | line :: rest =>
    if isLast line then ([line], rest)
    else
      let (taken, left) := takeLines isLast rest
      (line :: taken, left)

end Session

end GoScaffold
