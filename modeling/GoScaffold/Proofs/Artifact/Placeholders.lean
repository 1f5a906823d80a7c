import GoScaffold.Proofs.Artifact.Body

set_option autoImplicit false

/-! # Statements with their placeholders

The statements of the data access file, as pieces: the words of the language, the names and literals
put into them, and placeholders that know what their value is for. A placeholder for a column stands
where its value is compared with the column or written into it. The text and the values that have to
be bound to it are both read off the pieces. -/

namespace GoScaffold

/-- What the value of a placeholder is for. -/
inductive Slot
  | column (c : Column)
  | page (number : Access.PageNumber)
  deriving DecidableEq, Repr

/-- The value that belongs to a placeholder. -/
def Slot.argument (o : Options) : Slot → Argument
  | .column c => .field (Bound.ofColumn o c)
  | .page number => .page number

/-- A piece of a statement. -/
inductive Piece
  /-- Words and marks of the language. -/
  | words (sql : String)
  /-- A name of the declaration. -/
  | name (s : String)
  /-- A literal of the options. -/
  | literal (sql : String)
  | placeholder (slot : Slot)
  deriving DecidableEq, Repr

namespace Piece

/-- The piece as text. -/
def text : Piece → String
  | .words sql => sql
  | .name s => Sql.backticked s
  | .literal sql => sql
  | .placeholder _ => "?"

/-- What the piece wants a value for. -/
def slot? : Piece → Option Slot
  | .placeholder slot => some slot
  | _ => none

/-- What the piece takes over from the declaration or the options. -/
def foreign : Piece → String
  | .name s => s
  | .literal sql => sql
  | _ => ""

/-- Several pieces as text. -/
def textOf (ps : List Piece) : String := Text.concat (ps.map text)

/-- The placeholders of several pieces, from left to right. -/
def slots (ps : List Piece) : List Slot := ps.filterMap slot?

/-- Whether all question marks of the piece are placeholders or foreign. -/
def isPlain : Piece → Bool
  | .words sql => !sql.toList.contains '?'
  | _ => true

@[simp] theorem textOf_nil : textOf [] = "" := rfl

@[simp] theorem textOf_cons (p : Piece) (ps : List Piece) : textOf (p :: ps) = p.text ++ textOf ps :=
  rfl

@[simp] theorem textOf_append (ps ps' : List Piece) : textOf (ps ++ ps') = textOf ps ++ textOf ps' := by
  rw [textOf, List.map_append, Text.concat_append]
  rfl

@[simp] theorem slots_nil : slots [] = [] := rfl

@[simp] theorem slots_words (sql : String) (ps : List Piece) : slots (.words sql :: ps) = slots ps :=
  rfl

@[simp] theorem slots_name (s : String) (ps : List Piece) : slots (.name s :: ps) = slots ps := rfl

@[simp] theorem slots_literal (sql : String) (ps : List Piece) :
    slots (.literal sql :: ps) = slots ps := rfl

@[simp] theorem slots_placeholder (s : Slot) (ps : List Piece) :
    slots (.placeholder s :: ps) = s :: slots ps := rfl

@[simp] theorem slots_append (ps ps' : List Piece) : slots (ps ++ ps') = slots ps ++ slots ps' :=
  List.filterMap_append

/-- Lists of pieces with words between each two of them. -/
def separated (sep : String) : List (List Piece) → List Piece
  | [] => []
  | [ps] => ps
  | ps :: qs :: rest => ps ++ .words sep :: separated sep (qs :: rest)

theorem textOf_separated (sep : String) (pss : List (List Piece)) :
    textOf (separated sep pss) = Text.join sep (pss.map textOf) := by
  induction pss with
  | nil => rfl
  | cons ps pss ih =>
    cases pss with
    | nil => rfl
    | cons qs rest =>
      have hjoin : Text.join sep ((ps :: qs :: rest).map textOf)
          = textOf ps ++ sep ++ Text.join sep ((qs :: rest).map textOf) := rfl
      rw [separated, textOf_append, textOf_cons, ih, hjoin, String.append_assoc]
      rfl

theorem slots_separated (sep : String) (pss : List (List Piece)) :
    slots (separated sep pss) = pss.flatMap slots := by
  induction pss with
  | nil => rfl
  | cons ps pss ih =>
    cases pss with
    | nil => rw [separated, List.flatMap_cons, List.flatMap_nil, List.append_nil]
    | cons qs rest =>
      rw [separated, slots_append, slots_words, ih]
      rfl

theorem isPlain_separated {sep : String} {pss : List (List Piece)}
    (hsep : (Piece.words sep).isPlain = true) (h : ∀ ps ∈ pss, ps.all isPlain = true) :
    (separated sep pss).all isPlain = true := by
  induction pss with
  | nil => rfl
  | cons ps pss ih =>
    have hps := h ps List.mem_cons_self
    have hrest := ih fun qs hqs => h qs (List.mem_cons_of_mem _ hqs)
    cases pss with
    | nil => exact hps
    | cons qs rest => rw [separated, List.all_append, List.all_cons, hps, hsep, hrest]; rfl

/-- Apart from foreign ones, as many question marks are written as there are placeholders. -/
theorem count_textOf {ps : List Piece} (h : ps.all isPlain = true) :
    (textOf ps).toList.count '?'
      = (slots ps).length + (Text.concat (ps.map foreign)).toList.count '?' := by
  induction ps with
  | nil => rfl
  | cons p ps ih =>
    rw [List.all_cons, Bool.and_eq_true] at h
    have hforeign : (Text.concat ((p :: ps).map foreign)).toList
        = p.foreign.toList ++ (Text.concat (ps.map foreign)).toList := String.toList_append
    rw [textOf_cons, String.toList_append, List.count_append, ih h.2, hforeign, List.count_append]
    cases p with
    | words sql =>
      have hsql : sql.toList.count '?' = 0 := by
        have := h.1
        simpa [isPlain, List.count_eq_zero] using this
      simp [text, foreign, hsql]
    | name s =>
      simp [text, foreign, Sql.backticked, String.toList_append, List.count_append]
      omega
    | literal sql =>
      simp [text, foreign]
      omega
    | placeholder slot =>
      simp [text, foreign]
      omega

end Piece

/-! ## Statements -/

open Piece

/-- A statement about the rows of a table. -/
inductive Statement
  /-- Inserts a row with values for the columns. -/
  | insert (columns : List Column)
  /-- Writes values into columns of the row with a key. -/
  | update (sets key : List Column)
  /-- Selects the row with a key. -/
  | select (key : List Column)
  /-- Counts the rows that have the values of some columns, or all rows. -/
  | count (condition : Option (List Column))
  /-- Selects a page of those rows. -/
  | page (condition : Option (List Column)) (order : ListOrder)
  /-- Removes the row with a key. -/
  | delete (key : List Column)
  /-- Writes a literal into a column of the row with a key. -/
  | write (column : Column) (literal : String) (key : List Column)
  deriving DecidableEq, Repr

namespace Statement

/-- Some columns by name. -/
def names (columns : List Column) : List Piece :=
  separated ", " (columns.map fun c => [.name c.name])

/-- Compares a column with a value, or writes the value into it. -/
def equation (c : Column) : List Piece := [.name c.name, .words " = ", .placeholder (.column c)]

/-- The values of some columns, in their order. -/
def values (columns : List Column) : List Piece :=
  separated ", " (columns.map fun c => [.placeholder (.column c)])

/-- The condition that some columns have their values. -/
def matching (columns : List Column) : List Piece :=
  .words " where " :: separated " and " (columns.map equation)

/-- The order of a list. -/
def ordered : ListOrder → List Piece
  | .unordered => []
  | .ascending columns => .words " order by " :: names columns
  | .descending columns =>
    .words " order by " :: separated ", " (columns.map fun c => [.name c.name, .words " desc"])

/-- The pieces of a statement about a table. -/
def pieces (t : Table) : Statement → List Piece
  | .insert columns =>
    [.words "insert into ", .name t.name, .words " ("] ++ names columns
      ++ [.words ") values ("] ++ values columns ++ [.words ")"]
  | .update sets key =>
    [.words "update ", .name t.name, .words " set "] ++ separated ", " (sets.map equation)
      ++ matching key
  | .select key => .words "select " :: names t.columns ++ [.words " from ", .name t.name] ++ matching key
  | .count condition =>
    [.words "select count(*) from ", .name t.name] ++ (condition.map matching).getD []
  | .page condition order =>
    .words "select " :: names t.columns ++ [.words " from ", .name t.name]
      ++ (condition.map matching).getD [] ++ ordered order
      ++ [.words " limit ", .placeholder (.page .offset), .words ", ", .placeholder (.page .size)]
  | .delete key => [.words "delete from ", .name t.name] ++ matching key
  | .write c sql key =>
    [.words "update ", .name t.name, .words " set ", .name c.name, .words " = ", .literal sql]
      ++ matching key

/-- The statement as it is sent: its text, and the value of each placeholder from left to right. -/
def call (t : Table) (o : Options) (s : Statement) : Call where
  sql := textOf (s.pieces t)
  arguments := (slots (s.pieces t)).map (Slot.argument o)

end Statement

end GoScaffold
