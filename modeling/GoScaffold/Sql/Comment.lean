import GoScaffold.Text.Lines

set_option autoImplicit false

/-! # Removing comments

Comments are removed before statements are told apart, by rules that know nothing of quotes: first
the block comments, then what stands from `-- ` to the end of an ended line, then what stands from
`#` to the end of an ended line. A line comment on a last line that no line feed ends is left. -/

namespace GoScaffold.Sql

open Text

/-- What follows the first `*/`. -/
def afterClose : List Char → Option (List Char)
  | [] => none
  | '*' :: '/' :: cs => some cs
  | _ :: cs => afterClose cs

/-- The text without its block comments; the first argument says whether one is open. A `/*` that
nothing closes opens no comment. -/
def dropBlocks : Bool → List Char → List Char
  | _, [] => []
  | true, '*' :: '/' :: cs => dropBlocks false cs
  | true, _ :: cs => dropBlocks true cs
  | false, '/' :: '*' :: cs =>
    if (afterClose cs).isSome then dropBlocks true cs else '/' :: '*' :: dropBlocks false cs
  | false, c :: cs => c :: dropBlocks false cs

/-- The line up to the first place where `marker` stands. -/
def beforeMarker (marker : List Char) : List Char → List Char
  | [] => []
  | c :: cs => if marker.isPrefixOf (c :: cs) then [] else c :: beforeMarker marker cs

/-- Every line but the last up to its first `marker`. -/
def cutEnded (marker : List Char) : List (List Char) → List (List Char)
  | [] => []
  | [last] => [last]
  | line :: next :: rest => beforeMarker marker line :: cutEnded marker (next :: rest)

/-- The pieces with a line feed between each two. -/
def joinLines : List (List Char) → List Char
  | [] => []
  | [last] => last
  | line :: next :: rest => line ++ '\n' :: joinLines (next :: rest)

/-- The text without the line comments that `marker` opens on ended lines. -/
def dropLineComments (marker : List Char) (cs : List Char) : List Char :=
  joinLines (cutEnded marker (splitWhere (· == '\n') cs))

/-- The text without comments and without carriage returns. -/
def stripComments (cs : List Char) : List Char :=
  dropLineComments ['#'] (dropLineComments ['-', '-', ' '] (dropBlocks false (unifyNewlines cs)))

end GoScaffold.Sql
