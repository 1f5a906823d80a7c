import GoScaffold.Go.Code

set_option autoImplicit false

/-! # Files

A Go file has a banner, a package, imports and code. The imports are sorted and each stands once;
paths of the standard library come first, apart from the others. -/

namespace GoScaffold.Go

/-- A file before it is rendered. -/
structure File where
  package : String
  banner : Option String
  /-- The paths of the imports, in any order. -/
  imports : List String
  body : Code

/-- Inserts a path into a sorted list, unless it is there already. -/
def insertPath (path : String) : List String → List String
  | [] => [path]
  | p :: ps =>
    if path < p then path :: p :: ps else if path = p then p :: ps else p :: insertPath path ps

/-- The paths sorted, each once. -/
def sortPaths (paths : List String) : List String := paths.foldr insertPath []

/-- Paths of the standard library have no dot in their first element. -/
def isStandard (path : String) : Bool :=
  !(path.toList.takeWhile (· != '/')).contains '.'

/-- The head of the part of the file that renders one table. -/
def heading (title : String) : Code :=
  line ("// ==================== " ++ title ++ " ====================") ++ gap

/-- The import declaration. -/
def importCode (imports : List String) : Code :=
  let sorted := sortPaths imports
  let (standard, other) := sorted.partition isStandard
  let quoted (paths : List String) : Code := indent (lines (paths.map fun p => "\"" ++ p ++ "\""))
  if sorted.isEmpty then []
  else
    line "import (" ++ quoted standard
      ++ (if standard.isEmpty || other.isEmpty then [] else gap)
      ++ quoted other ++ line ")" ++ gap

/-- The text with at most one line feed at its end. -/
def dropBlankEnd : List Char → List Char
  | [] => []
  | c :: cs =>
    match dropBlankEnd cs with
    | ['\n'] => if c = '\n' then ['\n'] else [c, '\n']
    | rest => c :: rest

/-- `dropBlankEnd` on strings. -/
def endOnce (s : String) : String := Text.onChars dropBlankEnd s

/-- What stands before the body of a file. -/
def File.head (f : File) : Code :=
  (match f.banner with
    | some banner => lines ["/**", " * " ++ banner, " */"]
    | none => [])
    ++ line ("package " ++ f.package) ++ gap ++ importCode f.imports

/-- The file as text; no empty line ends it. -/
def File.render (f : File) : String := endOnce (Go.render (f.head ++ f.body))

end GoScaffold.Go
