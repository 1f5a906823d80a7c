import GoScaffold.Host.Fault
import GoScaffold.Text.Cut

set_option autoImplicit false

/-! # Stores

A store is a tree of directories and files, kept in memory. Places in it are lists of names from
the root on; a path is followed from a directory, name by name, through directories only. -/

namespace GoScaffold

/-- What stands at a place. -/
inductive Store.Entry
  | directory
  | file (content : ByteArray) (isProgram : Bool)
  /-- Something that is always empty and keeps nothing of what is written to it. -/
  | void

/-- The places below the root and what stands there. -/
structure Store where
  entries : List (List String × Store.Entry) := []

namespace Store

/-- A place: the names on the way from the root. -/
abbrev Place := List String

/-- What stands at a place. The root is a directory. -/
def lookup? (s : Store) (place : Place) : Option Entry :=
  if place.isEmpty then some .directory else s.entries.lookup place

/-- Sets what stands at a place. -/
def set (s : Store) (place : Place) (e : Entry) : Store :=
  match s.entries.lookup place with
  | none => ⟨s.entries ++ [(place, e)]⟩
  | some _ => ⟨s.entries.map fun (p, old) => if p = place then (p, e) else (p, old)⟩

/-- Makes the directories on the way to a place that are not there. -/
def makeWay (s : Store) (place : Place) : Store :=
  ((List.range place.length).map place.take).foldl (fun s p =>
    match s.lookup? p with
    | some _ => s
    | none => s.set p .directory) s

/-- Puts a file, and the directories that it is in. -/
def put (s : Store) (place : Place) (content : ByteArray) (isProgram : Bool) : Store :=
  (s.makeWay place).set place (.file content isProgram)

/-! ## Paths -/

/-- The names of a path. A slash at its end asks for a directory, like a dot. -/
def namesOf (path : String) : List String :=
  let pieces := (Text.splitWhere (· == '/') path.toList).map String.ofList
  let names := pieces.filter fun name => !name.isEmpty
  if path.toList.getLast? == some '/' then names ++ ["."] else names

/-- Follows names from a place. Whatever names follow, there has to be a directory; what the last
one leads to may be missing. -/
def follow (s : Store) : Place → List String → Except Fault Place
  | here, [] => .ok here
  | here, name :: rest =>
    match s.lookup? here with
    | none => .error .noSuchFile
    | some (.file _ _) => .error .notDirectory
    | some .void => .error .notDirectory
    | some .directory =>
      if name = "." then follow s here rest
      else if name = ".." then follow s here.dropLast rest
      else if 255 < name.utf8ByteSize then .error .nameTooLong
      else follow s (here ++ [name]) rest

/-- The least size of a path that is refused. -/
def tooLong : Nat := 4096

/-- The place that a path leads to from a directory. -/
def locate (s : Store) (directory : Place) (path : String) : Except Fault Place :=
  if path.isEmpty then .error .noSuchFile
  else if path.toList.contains '\x00' then .error .nulInPath
  else if tooLong ≤ path.utf8ByteSize then .error .nameTooLong
  else s.follow (if path.toList.head? = some '/' then [] else directory) (namesOf path)

/-- What a path leads to. -/
def find (s : Store) (directory : Place) (path : String) : Except Fault (Place × Entry) :=
  (s.locate directory path).bind fun place =>
    match s.lookup? place with
    | some e => .ok (place, e)
    | none => .error .noSuchFile

/-! ## Operations -/

/-- The content of a file. -/
def read (s : Store) (directory : Place) (path : String) : Except Fault ByteArray :=
  (s.find directory path).bind fun (_, e) =>
    match e with
    | .file content _ => .ok content
    | .void => .ok ByteArray.empty
    | .directory => .error .isDirectory

/-- Sets the content of the file at a place, from what it was before; a new one is empty and no
program. -/
def writeAt (s : Store) (place : Place) (content : ByteArray → ByteArray) : Except Fault Store :=
  match s.lookup? place with
  | some (.file old isProgram) => .ok (s.set place (.file (content old) isProgram))
  | some .void => .ok s
  | some .directory => .error .isDirectory
  | none => .ok (s.set place (.file (content ByteArray.empty) false))

/-- Sets the content of the file that a path leads to. -/
def write (s : Store) (directory : Place) (path : String) (content : ByteArray → ByteArray) :
    Except Fault Store :=
  (s.locate directory path).bind fun place => s.writeAt place content

/-- Makes a directory. -/
def makeDirectory (s : Store) (directory : Place) (path : String) : Except Fault Store :=
  (s.locate directory path).bind fun place =>
    match s.lookup? place with
    | some _ => .error .alreadyExists
    | none => .ok (s.set place .directory)

/-- The name of the second place in the first, if it is right there. -/
def childName? (place child : Place) : Option String :=
  match place.isPrefixOf? child with
  | some [name] => some name
  | _ => none

/-- The names in a directory. -/
def names (s : Store) (directory : Place) (path : String) : Except Fault (List String) :=
  (s.find directory path).bind fun (place, e) =>
    match e with
    | .directory => .ok (s.entries.filterMap fun (p, _) => childName? place p)
    | .file _ _ => .error .notDirectory
    | .void => .error .notDirectory

/-- The files below a place, by the paths that lead there. -/
def filesBelow (s : Store) (place : Place) : List (String × ByteArray) :=
  s.entries.filterMap fun (p, e) =>
    match e, place.isPrefixOf? p with
    | .file content _, some names => some (Text.join "/" names, content)
    | _, _ => none

end Store

end GoScaffold
