import GoScaffold.Proofs.Go.Reporting

set_option autoImplicit false

/-! # Lines that bind values

Values are bound to the placeholders of a statement on few kinds of lines: those that start or add to
the list of arguments, and those that hand written values to the database. Such a line is a front, the
values with commas, and an end (`Binding.text`). It is told by its front (`binds`), and no other line is. -/

namespace GoScaffold.Go

open Text

/-- How a line binds values. -/
inductive Binding
  /-- Starts the list of arguments. -/
  | started
  /-- Adds to the list of arguments. -/
  | added
  /-- Returns what a statement with the values changes. -/
  | returned
  /-- Takes what a statement with the values changes. -/
  | taken
  /-- Fetches a record of a type. -/
  | fetched (model : String)
  deriving DecidableEq, Repr

namespace Binding

/-- What stands before the values. -/
def front : Binding → String
  | .started => "args := []any\x7b"
  | .added => "args = append(args, "
  | .returned => "return rowsAffected(db.Exec(query, "
  | .taken => "rows, err := rowsAffected(db.Exec(query, "
  | .fetched model => "m, err := scan" ++ model ++ "(db.QueryRow(query, "

/-- What stands behind the values. -/
def back : Binding → String
  | .started => "\x7d"
  | .added => ")"
  | .returned | .taken | .fetched _ => "))"

/-- The line with some values. -/
def text (b : Binding) (values : List String) : String := b.front ++ join ", " values ++ b.back

end Binding

/-! ## Telling the lines -/

/-- Whether a line fetches a record with written values. -/
def fetches (cs : List Char) : Bool :=
  match dropPrefix? "m, err := scan".toList cs with
  | some rest => "(db.QueryRow(query, ".toList.isPrefixOf (rest.dropWhile isNameChar)
  | none => false

/-- The beginnings of the other lines that bind values. -/
def bindingStarts : List String :=
  ["args := []any\x7b", "args = append(args, ", "return rowsAffected(db.Exec(query, ",
    "rows, err := rowsAffected(db.Exec(query, "]

/-- The beginnings of those that bind the list of arguments as it is. -/
def gatheredStarts : List String :=
  ["return rowsAffected(db.Exec(query, args...", "rows, err := rowsAffected(db.Exec(query, args..."]

/-- Whether a line binds values that are written on it. -/
def binds (cs : List Char) : Bool :=
  beginsWith bindingStarts cs && !beginsWith gatheredStarts cs || fetches cs

/-- Whether no line with this front binds values. -/
def bindsNone (front : String) : Bool :=
  ruledOut ("m, err := scan" :: bindingStarts) front.toList

theorem binds_append {front : String} (h : bindsNone front = true) (rest : String) :
    binds (front ++ rest).toList = false := by
  have hnone : beginsWith ("m, err := scan" :: bindingStarts) (front ++ rest).toList = false := by
    rw [String.toList_append]
    exact beginsWith_append h _
  have hstarts : beginsWith bindingStarts (front ++ rest).toList = false :=
    beginsWith_of_subset hnone (List.subset_cons_self _ _)
  have hscan : dropPrefix? "m, err := scan".toList (front ++ rest).toList = none :=
    dropPrefix?_of_beginsWith hnone (by simp)
  rw [binds, fetches, hstarts, hscan]
  rfl

/-- What is scanned from rows is not fetched. -/
theorem binds_scan {model : String} (hmodel : IsName model) :
    binds ("m, err := scan" ++ model ++ "(rows)").toList = false := by
  have hstarts : beginsWith bindingStarts ("m, err := scan" ++ (model ++ "(rows)")).toList = false := by
    rw [String.toList_append]
    exact beginsWith_append (by decide) _
  have hdrop : dropPrefix? "m, err := scan".toList ("m, err := scan" ++ (model ++ "(rows)")).toList
      = some (model ++ "(rows)").toList := by
    rw [String.toList_append, dropPrefix?_eq_some]
  have hrest : (model ++ "(rows)").toList.dropWhile isNameChar = "(rows)".toList := by
    rw [String.toList_append, List.dropWhile_append_of_pos hmodel]
    decide
  rw [String.append_assoc, binds, fetches, hstarts, hdrop]
  simp only [hrest, Bool.false_and, Bool.false_or]
  decide

/-! ## Code that binds nothing -/

/-- Whether no line binds values that are written on it. -/
def BindsNothing (c : Code) : Prop := ∀ l ∈ c, binds l.text.toList = false

instance (c : Code) : Decidable (BindsNothing c) :=
  inferInstanceAs (Decidable (∀ l ∈ c, binds l.text.toList = false))

namespace BindsNothing

variable {c d : Code}

theorem append (h : BindsNothing c) (h' : BindsNothing d) : BindsNothing (c ++ d) :=
  List.forall_mem_append.2 ⟨h, h'⟩

/-- A line that is told by its front. -/
theorem front (front : String) (h : bindsNone front = true) (rest : String) :
    BindsNothing (line (front ++ rest)) :=
  List.forall_mem_singleton.2 (binds_append h rest)

theorem indent (h : BindsNothing c) : BindsNothing (indent c) := by
  intro l hl
  obtain ⟨inner, hinner, rfl⟩ := List.mem_map.1 hl
  exact h inner hinner

/-- The line that opens a block and is told by its front. -/
theorem head (front : String) (h : bindsNone front = true) (rest : String) :
    BindsNothing (line (front ++ rest ++ " \x7b")) := by
  rw [String.append_assoc]
  exact .front front h _

theorem block {head : String} (hhead : BindsNothing (line (head ++ " \x7b"))) (h : BindsNothing c) :
    BindsNothing (block head c) :=
  .append (.append hhead h.indent) (by decide)

theorem declaration {head : String} (hhead : BindsNothing (line (head ++ " \x7b")))
    (h : BindsNothing c) : BindsNothing (declaration head c) :=
  .append (.block hhead h) (by decide)

end BindsNothing

/-- The lines that bind values are told from the others. -/
example :
    binds (Binding.text (.fetched "Dept") ["s.Id"]).toList = true
      ∧ binds (Binding.text .added ["s.Id", "s.Name"]).toList = true
      ∧ binds "return rowsAffected(db.Exec(query, args...))".toList = false := by
  decide

end GoScaffold.Go
