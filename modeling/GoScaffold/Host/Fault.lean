set_option autoImplicit false

/-! # Faults of the system

What can go wrong when files are read and written. Faults of the operating system carry its error
number in their wording. -/

namespace GoScaffold

/-- Why a request to the system failed. -/
inductive Fault
  | noSuchFile
  | permissionDenied
  | alreadyExists
  | notDirectory
  | isDirectory
  | nameTooLong
  | notImplemented
  /-- A file that is to be run is no program. -/
  | notProgram
  /-- A path holds the character that ends paths in system calls. -/
  | nulInPath
  /-- What was read is not UTF-8. -/
  | notText
  /-- Any other fault, by its wording. -/
  | other (wording : String)
  deriving DecidableEq, Repr

namespace Fault

/-- The wording of an error of the operating system. -/
def numbered (wording : String) (number : Nat) : String :=
  wording ++ " (os error " ++ toString number ++ ")"

/-- The wording of a fault. -/
def message : Fault → String
  | noSuchFile => numbered "No such file or directory" 2
  | notProgram => numbered "Exec format error" 8
  | permissionDenied => numbered "Permission denied" 13
  | alreadyExists => numbered "File exists" 17
  | notDirectory => numbered "Not a directory" 20
  | isDirectory => numbered "Is a directory" 21
  | nameTooLong => numbered "File name too long" 36
  | notImplemented => numbered "Function not implemented" 38
  | nulInPath => "file name contained an unexpected NUL byte"
  | notText => "stream did not contain valid UTF-8"
  | other wording => wording

end Fault

end GoScaffold
