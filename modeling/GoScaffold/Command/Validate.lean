import GoScaffold.Command.Error

set_option autoImplicit false

/-! # The command `validate`

A report on a schema: its tables, what is wrong with them, and a summary. The command fails if a
declaration does not parse; warnings alone are no failure. -/

namespace GoScaffold.Command

variable {m : Type → Type} [Monad m] [Host m]

/-- A table with its columns and its keys. -/
def described (t : Table) : String :=
  let columns := t.columns.map fun c => c.name ++ " " ++ c.declaredType
  let keys := t.keys
  let group (kind : String) (columns : List Column) : String :=
    Terminal.subItem (kind ++ ": " ++ groupSuffix columns)
  Text.concat (
    [Terminal.item (t.name ++ " (" ++ t.modelName ++ ")"),
      Terminal.subItem ("columns: " ++ Text.join ", " columns)]
    ++ keys.primary.toList.map (group "primary")
    ++ keys.unique.map (group "unique")
    ++ keys.index.map (group "index"))

/-- The summary of a schema. -/
def summary (s : Schema) : String :=
  let count (name : String) (n : Nat) : String := Terminal.entry name (toString n)
  Terminal.part "Summary"
    ++ count "Tables" s.tables.length
    ++ count "Columns" (s.tables.flatMap (·.columns)).length
    ++ count "Skipped" s.skipped.length
    ++ count "Warnings" s.warnings.length
    ++ Terminal.gap

/-- Reports on a schema. -/
def runValidate (input : Option String) : Action m Unit := do
  say (Terminal.header "Validate DDL")
  if let some path := input then say (Terminal.entry "Input" path ++ Terminal.gap)
  let schema := Schema.parse (← readInput input)
  if !schema.tables.isEmpty then
    say (Terminal.part "Tables" ++ Text.concat (schema.tables.map described) ++ Terminal.gap)
  reportProblems schema
  say (summary schema)
  if !schema.skipped.isEmpty then throw (.skipped schema.skipped.length)
  say (Terminal.success
    (if schema.warnings.isEmpty then "DDL is valid!" else "DDL is valid with warnings"))

end GoScaffold.Command
