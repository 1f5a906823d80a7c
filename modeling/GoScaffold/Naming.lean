import GoScaffold.Text.Alphanumeric
import GoScaffold.Text.Cut
import GoScaffold.Text.LetterCase

set_option autoImplicit false

/-! # Names in three cases

Go types and fields are named in upper camel case, wire names in snake case and routes in kebab
case. The conversions lose information: a snake name that was camel before comes back only if it
was canonical. -/

namespace GoScaffold.Naming

open Text

/-- The word with its first character in upper case and the others kept. -/
def capitalize : List Char → List Char
  | [] => []
  | c :: cs => toUpperCase c ++ cs

/-- Every run of letters and digits capitalized, and nothing of what stands between them. -/
def upperCamelChars (cs : List Char) : List Char :=
  (splitWhere (fun c => !isAlphanumeric c) cs).flatMap capitalize

/-- Every capital lowered with `sep` before it, and no `sep` at the front. -/
def separate (sep : Char) (cs : List Char) : List Char :=
  (cs.flatMap fun c => if isCapital c then sep :: toLowerCase c else [c]).dropWhile (· == sep)

/-- `tb_dept` becomes `TbDept`. -/
def upperCamel (s : String) : String := onChars upperCamelChars s

/-- `TbDept` becomes `tb_dept`; other separators stay. -/
def snake (s : String) : String := onChars (separate '_') s

/-- `tb_dept` and `TbDept` become `tb-dept`. -/
def kebab (s : String) : String := onChars (fun cs => separate '-' (upperCamelChars cs)) s

/-- The name with its first character in lower case. -/
def lowerFirst (s : String) : String :=
  onChars (fun | [] => [] | c :: cs => toLowerCase c ++ cs) s

end GoScaffold.Naming
