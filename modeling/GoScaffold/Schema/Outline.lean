import GoScaffold.Schema.Keys
import GoScaffold.Schema.Problem
import GoScaffold.Sql.Quoted
import GoScaffold.Text.Span

set_option autoImplicit false

/-! # Outlines

The parse tree of a declaration stems from its copy in capitals, so it only tells where things
stand. An outline keeps these places, and filling it takes the words from the text as it was
written, so that names and comments keep their case. -/

namespace GoScaffold

open Grammar (Tree)

/-- Where the parts of a column stand. -/
structure ColumnOutline where
  name : Option Span := none
  declaredType : Option Span := none
  flags : Flags := {}
  comment : Option Span := none
  default : Option Span := none
  deriving DecidableEq, Repr

/-- Where the parts of a table stand. -/
structure Outline where
  name : Option Span := none
  comment : Option Span := none
  columns : List ColumnOutline := []
  keys : List (KeyKind × List Span) := []
  deriving DecidableEq, Repr

/-! ## From trees -/

/-- Where the first part with this rule stands. -/
def partSpan? (t : Tree) (r : Grammar.Rule) : Option Span := (t.child? r).map (·.span)

namespace ColumnOutline

/-- Adds what one part of a column says. Of several comments or defaults the last counts. -/
def add (o : ColumnOutline) (part : Tree) : ColumnOutline :=
  match part.rule with
  | .identifier => if o.name.isNone then { o with name := some part.span } else o
  | .dataType => { o with declaredType := partSpan? part .typeName }
  | .notNull => { o with flags := { o.flags with notNull := true } }
  | .autoIncrement => { o with flags := { o.flags with autoIncrement := true } }
  | .onUpdate => { o with flags := { o.flags with onUpdate := true } }
  | .primaryAttr => { o with flags := { o.flags with primary := true } }
  | .uniqueAttr => { o with flags := { o.flags with unique := true } }
  | .commentAttr => { o with comment := partSpan? part .stringLiteral }
  | .defaultClause =>
    match part.child? .defaultValue with
    | none => o
    | some value =>
      { o with
        flags := { o.flags with
          hasDefault := true
          currentTimestamp := (value.child? .currentTimestamp).isSome }
        default := some value.span }
  | _ => o

/-- The outline of a column definition. -/
def ofTree (t : Tree) : ColumnOutline := t.children.foldl add {}

end ColumnOutline

/-- The kind of key that a definition declares; foreign keys and checks declare none. -/
def keyKind? : Grammar.Rule → Option KeyKind
  | .primaryKeyDef => some .primary
  | .uniqueKeyDef => some .unique
  | .indexDef => some .index
  | _ => none

/-- The key of a table constraint, with where its members stand. -/
def keyOutline? (constraint : Tree) : Option (KeyKind × List Span) :=
  match constraint.children.find? (·.rule != .constraintName) with
  | none => none
  | some definition =>
    match keyKind? definition.rule, definition.child? .keyParts with
    | some kind, some parts => some (kind, parts.children.filterMap (partSpan? · .identifier))
    | _, _ => none

namespace Outline

/-- Adds what one part of a declaration says. The last part of a qualified name counts, and of
several comments the last. -/
def add (o : Outline) (part : Tree) : Outline :=
  match part.rule with
  | .tableName =>
    { o with name := ((part.children.filter (·.rule == .identifier)).getLast?).map (·.span) }
  | .columnDef => { o with columns := o.columns ++ [ColumnOutline.ofTree part] }
  | .tableConstraint => { o with keys := o.keys ++ (keyOutline? part).toList }
  | .tableComment => { o with comment := partSpan? part .stringLiteral }
  | _ => o

/-- The outline of a table declaration. -/
def ofTree (t : Tree) : Outline := t.children.foldl add {}

end Outline

/-! ## Filling -/

/-- Whether the parentheses of a text are balanced, `depth` of them being open; none is closed
before it is opened. -/
def balanced : Nat → List Char → Bool
  | depth, [] => depth == 0
  | depth, c :: cs =>
    if c = '(' then balanced (depth + 1) cs
    else if c = ')' then
      match depth with
      | 0 => false
      | depth + 1 => balanced depth cs
    else balanced depth cs

/-- The text without one pair of parentheses around the whole of it. -/
def stripParens (cs : List Char) : List Char :=
  match Text.between? '(' ')' cs with
  | none => cs
  | some inner => if balanced 0 inner then Text.trimBlank inner else cs

/-- The name that a span spells. -/
def nameAt (text : List Char) (s : Span) : String :=
  String.ofList (Sql.unquoteIdentifier (s.slice text))

/-- The value of the string literal at a span. -/
def stringAt (text : List Char) (s : Span) : String :=
  String.ofList (Sql.unquoteString (s.slice text))

/-- The column of an outline. -/
def ColumnOutline.fill (o : ColumnOutline) (text : List Char) : Column where
  name := (o.name.map (nameAt text)).getD ""
  declaredType := String.ofList (Text.raise ((o.declaredType.map (·.slice text)).getD []))
  flags := o.flags
  comment := o.comment.map (stringAt text)
  default := o.default.map fun s => String.ofList (stripParens (Text.trimBlank (s.slice text)))

/-- The places of the members of a key, with a warning for each member that names no column. -/
def resolveMembers (t : Table) (kind : KeyKind) : List String → List Nat × List Warning
  | [] => ([], [])
  | member :: rest =>
    let (places, warnings) := resolveMembers t kind rest
    match t.columnIndex? member with
    | some place => (place :: places, warnings)
    | none => (places, .unknownKeyColumn t.name kind member :: warnings)

/-- Adds a key to the table, or warns that it has no member left. -/
def fillKey (text : List Char) (t : Table) (key : KeyKind × List Span) : Table × List Warning :=
  let (places, warnings) := resolveMembers t key.1 (key.2.map (nameAt text))
  if places.isEmpty then (t, warnings ++ [.emptyKeyGroup t.name key.1])
  else (t.addKeyGroup key.1 ⟨places⟩, warnings)

/-- Adds the keys one after another. -/
def fillKeys (text : List Char) (t : Table) : List (KeyKind × List Span) → Table × List Warning
  | [] => (t, [])
  | key :: rest =>
    let (t, warnings) := fillKey text t key
    let (t, more) := fillKeys text t rest
    (t, warnings ++ more)

/-- The table of an outline, with warnings for key members that name no column. -/
def Outline.fill (o : Outline) (text : List Char) : Table × List Warning :=
  fillKeys text
    { name := (o.name.map (nameAt text)).getD ""
      columns := o.columns.map (·.fill text)
      comment := o.comment.map (stringAt text) }
    o.keys

end GoScaffold
