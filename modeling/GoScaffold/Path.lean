import GoScaffold.Text.Cut

set_option autoImplicit false

/-! # Paths

Paths are texts with slashes between names. Joining keeps both sides as they are written. -/

namespace GoScaffold.Path

/-- Whether the path starts at the root. -/
def isAbsolute (path : String) : Bool := path.toList.head? == some '/'

/-- The second path seen from the first: an absolute one stands for itself, and a slash comes
between the two unless the first is empty or ends in one. -/
def join (base path : String) : String :=
  if isAbsolute path then path
  else if base.isEmpty || base.toList.getLast? == some '/' then base ++ path
  else base ++ "/" ++ path

/-- The pieces of a text between its slashes, the last one first. -/
def backwards (cs : List Char) : List String :=
  ((Text.splitWhere (· == '/') cs).map String.ofList).reverse

/-- A piece between slashes that names nothing: two slashes are one, and a dot leads nowhere. -/
def isVoid (piece : String) : Bool := piece.isEmpty || piece == "."

/-- The front of a path, which belongs to none of its names: the first slash of an absolute path, or
the dot that a relative path starts from. -/
def splitFront : List Char → String × List Char
  | '/' :: cs => ("/", cs)
  | ['.'] => (".", [])
  | '.' :: '/' :: cs => (".", '/' :: cs)
  | cs => ("", cs)

/-- The path of what holds the last name: the text before that name and the void pieces around it. A
path that is only a dot is in the empty path; the root and the empty path are in nothing. -/
def parent? (path : String) : Option String :=
  let (front, cs) := splitFront path.toList
  match (backwards cs).dropWhile isVoid with
  | _ :: before => some (front ++ Text.join "/" (before.dropWhile isVoid).reverse)
  | [] => if front = "." then some "" else none

/-- The path itself, what holds it, what holds that, and so on; `fuel` bounds how many. -/
def parentsUpTo : (fuel : Nat) → String → List String
  | 0, _ => []
  | fuel + 1, path =>
    match parent? path with
    | some above => path :: parentsUpTo fuel above
    | none => [path]

/-- The path itself, what holds it, what holds that, and so on. Each is shorter than the one before
it, so that there are no more than the path has characters, and one for the empty path. -/
def withParents (path : String) : List String := parentsUpTo (path.toList.length + 1) path

/-- Where something with this name is looked for: in each of some directories, which have colons
between them. -/
def candidates (directories : String) (name : String) : List String :=
  (Text.splitWhere (· == ':') directories.toList).map fun d => join (String.ofList d) name

/-- The path as seen from a directory, if it is below that. -/
def below? (directory path : String) : Option String :=
  (Text.dropPrefix? (join directory "").toList path.toList).map String.ofList

/-- The last name of the path; none if it ends in two dots, which name nothing of their own. -/
def fileName? (path : String) : Option String :=
  ((backwards (splitFront path.toList).2).find? (!isVoid ·)).filter (· != "..")

/-- What follows the last dot of the last name, unless that dot begins the name. -/
def extension? (path : String) : Option String :=
  let reversed := ((fileName? path).getD "").toList.reverse
  let ending := reversed.takeWhile (· != '.')
  match reversed.dropWhile (· != '.') with
  | '.' :: _ :: _ => some (String.ofList ending.reverse)
  | _ => none

end GoScaffold.Path
