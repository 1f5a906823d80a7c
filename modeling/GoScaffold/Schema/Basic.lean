import GoScaffold.Grammar.Ddl
import GoScaffold.Schema.Outline
import GoScaffold.Sql.Statement

set_option autoImplicit false

/-! # Reading schemas

A schema text is cut into statements, and every statement that declares a table is parsed. One that
does not parse is set aside with its error and never stops those that follow. -/

namespace GoScaffold

open Grammar (Tree)

/-- The parse tree of a declaration, over its copy in capitals. -/
def declarationTree (text : List Char) : Except Grammar.Failure (Option Tree) :=
  (Grammar.parse Grammar.Ddl.createTable (Text.raise text)).map List.head?

/-- The warnings about unique groups that repeat an earlier one. -/
def duplicateWarnings (t : Table) : List Warning :=
  t.keys.duplicates.map fun group => .duplicateKeyGroup t.name (groupLabel group)

/-- The table that a statement declares, with its warnings; nothing if it declares none. -/
def readTable (statement : String) : Except SyntaxError (Option (Table × List Warning)) :=
  let text := statement.toList
  if !Sql.isTableDeclaration text then .ok none
  else
    match declarationTree text with
    | .error failure => .error ⟨statement, failure⟩
    | .ok none => .error ⟨statement, ⟨0, [], []⟩⟩
    | .ok (some tree) =>
      let (table, warnings) := (Outline.ofTree tree).fill text
      .ok (some (table, warnings ++ duplicateWarnings table))

/-- The table that a statement declares, if it declares one. -/
def parseTable (statement : String) : Except SyntaxError (Option Table) :=
  (readTable statement).map fun found => found.map (·.1)

/-- What a schema text holds. -/
structure Schema where
  /-- The tables in order. -/
  tables : List Table := []
  /-- The declarations that do not parse. -/
  skipped : List SyntaxError := []
  /-- What is wrong with the tables that were read. -/
  warnings : List Warning := []

namespace Schema

/-- The contents of two texts, one after the other. -/
def append (a b : Schema) : Schema :=
  ⟨a.tables ++ b.tables, a.skipped ++ b.skipped, a.warnings ++ b.warnings⟩

/-- What one statement holds. -/
def ofStatement (statement : String) : Schema :=
  match readTable statement with
  | .ok none => {}
  | .ok (some (table, warnings)) => { tables := [table], warnings := warnings }
  | .error e => { skipped := [e] }

/-- What the statements hold, in order. -/
def ofStatements : List String → Schema
  | [] => {}
  | s :: rest => (ofStatement s).append (ofStatements rest)

/-- What a schema text holds. -/
def parse (text : String) : Schema :=
  ofStatements ((Sql.statements text.toList).map String.ofList)

/-- The first table with this name, up to case. -/
def table? (s : Schema) (name : String) : Option Table :=
  s.tables.find? fun t => Text.sameLetters t.name name

/-- Whether nothing was skipped and nothing is wrong. -/
def isClean (s : Schema) : Bool := s.skipped.isEmpty && s.warnings.isEmpty

end Schema

end GoScaffold
