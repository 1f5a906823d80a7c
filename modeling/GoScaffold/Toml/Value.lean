set_option autoImplicit false

/-! # TOML values

A document is a table whose entries come from many lines. Which line made a table decides what may
still be added to it: a header opens a table once, dotted keys add only to tables that dotted keys
or longer headers made, and an inline table is complete. -/

namespace GoScaffold.Toml

/-- How a table came to be. -/
inductive Origin
  /-- It has a header of its own. -/
  | header
  /-- It is on the way to a table with a header. -/
  | implied
  /-- It is on the way of a dotted key. -/
  | dotted
  /-- It is written in braces. -/
  | inline
  deriving DecidableEq, Repr

/-- A value of a document. -/
inductive Value
  | text (s : String)
  | truth (b : Bool)
  /-- An integer or a floating-point number, as written. -/
  | number (token : String)
  /-- A date, a time or both, as written. -/
  | moment (token : String)
  | list (items : List Value)
  | table (origin : Origin) (entries : List (String × Value))
  /-- The tables with the same doubled header. -/
  | tables (elements : List (List (String × Value)))

/-- The entries of a table. -/
abbrev Entries := List (String × Value)

/-- A dotted key: the tables on its way, and its last name. -/
structure Key where
  way : List String
  name : String
  deriving DecidableEq, Repr

/-- The key of one or more names. -/
def Key.ofNames? (names : List String) : Option Key :=
  names.getLast?.map fun name => ⟨names.dropLast, name⟩

namespace Entries

/-- The entries with another value for a name that is there. -/
def replace (es : Entries) (name : String) (v : Value) : Entries :=
  es.map fun (n, w) => if n = name then (n, v) else (n, w)

/-- Adds an entry; a name stands only once. -/
def add? (es : Entries) (name : String) (v : Value) : Option Entries :=
  match es.lookup name with
  | none => some (es ++ [(name, v)])
  | some _ => none

/-- Changes the entries of the table that a header names, from the document on. Tables that are
missing on the way are made, and of tables with the same doubled header the last one counts. -/
def onHeaderWay (change : Entries → Option Entries) : List String → Entries → Option Entries
  | [], es => change es
  | name :: way, es =>
    match es.lookup name with
    | none => (onHeaderWay change way []).map fun inner => es ++ [(name, .table .implied inner)]
    | some (.table .inline _) => none
    | some (.table origin inner) =>
      (onHeaderWay change way inner).map fun inner => replace es name (.table origin inner)
    | some (.tables elements) =>
      (onHeaderWay change way (elements.getLast?.getD [])).map fun inner =>
        replace es name (.tables (elements.dropLast ++ [inner]))
    | some _ => none

/-- Whether a dotted key may go through a table, or end in it. -/
def Origin.isOpen (origin : Origin) (ending : Bool) : Bool :=
  origin == .dotted || (origin == .implied && !ending)

/-- Changes the entries of the table that a dotted key names, from the current table on. -/
def onKeyWay (change : Entries → Option Entries) : List String → Entries → Option Entries
  | [], es => change es
  | name :: way, es =>
    match es.lookup name with
    | none => (onKeyWay change way []).map fun inner => es ++ [(name, .table .dotted inner)]
    | some (.table origin inner) =>
      if Origin.isOpen origin way.isEmpty then
        (onKeyWay change way inner).map fun inner => replace es name (.table origin inner)
      else none
    | some (.tables elements) =>
      if way.isEmpty then none
      else
        (onKeyWay change way (elements.getLast?.getD [])).map fun inner =>
          replace es name (.tables (elements.dropLast ++ [inner]))
    | some _ => none

/-- Adds the value of a dotted key. -/
def assign? (es : Entries) (key : Key) (v : Value) : Option Entries :=
  onKeyWay (fun inner => add? inner key.name v) key.way es

/-- Adds the values of several dotted keys. -/
def assignAll? (es : Entries) (assignments : List (Key × Value)) : Option Entries :=
  assignments.foldlM (fun es (key, v) => assign? es key v) es

/-- Opens the table of a header: a new one, or one that so far was only on the way. -/
def openTable? (es : Entries) (key : Key) : Option Entries :=
  onHeaderWay (fun inner =>
    match inner.lookup key.name with
    | none => some (inner ++ [(key.name, .table .header [])])
    | some (.table .implied entries) => some (replace inner key.name (.table .header entries))
    | some _ => none) key.way es

/-- Opens the next table of a doubled header. -/
def openElement? (es : Entries) (key : Key) : Option Entries :=
  onHeaderWay (fun inner =>
    match inner.lookup key.name with
    | none => some (inner ++ [(key.name, .tables [[]])])
    | some (.tables elements) => some (replace inner key.name (.tables (elements ++ [[]])))
    | some _ => none) key.way es

end Entries

end GoScaffold.Toml
