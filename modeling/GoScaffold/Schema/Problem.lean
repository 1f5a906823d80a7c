import GoScaffold.Grammar.Expr
import GoScaffold.Schema.Table

set_option autoImplicit false

/-! # Problems of schema texts

A declaration that does not parse is skipped with an error; a table that was read may still come
with warnings about its keys. -/

namespace GoScaffold

/-- A table declaration that does not parse. -/
structure SyntaxError where
  statement : String
  failure : Grammar.Failure

/-- The wording of a syntax error. -/
def SyntaxError.message (e : SyntaxError) : String :=
  "syntax error in statement: " ++ e.failure.message

/-- A fault in the keys of a table that was read all the same. -/
inductive Warning
  /-- A key member names no column and was left out. -/
  | unknownKeyColumn (table : String) (kind : KeyKind) (column : String)
  /-- A key has no member left and was left out. -/
  | emptyKeyGroup (table : String) (kind : KeyKind)
  /-- A unique group has the columns of an earlier one. -/
  | duplicateKeyGroup (table : String) (columns : String)
  deriving DecidableEq, Repr

/-- The wording of a warning. -/
def Warning.message : Warning → String
  | .unknownKeyColumn table kind column =>
    "table `" ++ table ++ "`: " ++ kind.name ++ " key member `" ++ column
      ++ "` does not name a column and was dropped"
  | .emptyKeyGroup table kind =>
    "table `" ++ table ++ "`: " ++ kind.name ++ " key group has no known columns and was dropped"
  | .duplicateKeyGroup table columns =>
    "table `" ++ table ++ "`: key (" ++ columns ++ ") is declared more than once"

end GoScaffold
