set_option autoImplicit false

/-! # Shell scripts

What a script is made of. Words are built from texts, parameters and sums; statements are commands,
lists of statements that depend on how others end, and loops. -/

namespace GoScaffold.Script

/-- What a parameter stands for. -/
inductive Form (Word : Type)
  | value
  /-- How long its value is. -/
  | size
  /-- Its value, or a word if it is not set, or perhaps if it is empty. -/
  | orElse (orEmpty : Bool) (w : Word)
  /-- A word if it is set, and perhaps only if it is not empty. -/
  | instead (notEmpty : Bool) (w : Word)
  /-- Its value without what a pattern matches at one of its ends. -/
  | without (atEnd longest : Bool) (pattern : Word)

/-- A part of a word. What is in quotes is neither split into fields nor read as a pattern. -/
inductive Piece
  | literal (text : String) (quoted : Bool)
  | parameter (name : String) (form : Form (List Piece)) (quoted : Bool)
  /-- The value of an integer expression. -/
  | sum (expression : List Piece) (quoted : Bool)

/-- A word: its parts, one after another. -/
abbrev Word := List Piece

/-- Where output goes. -/
inductive Sink
  /-- Where that of the standard output or the standard error goes. -/
  | stream (isError : Bool)
  | file (path : Word) (append : Bool)

/-- A statement. Those that can go wrong know their line. -/
inductive Statement
  /-- A command, after the variables that are set for it. -/
  | command (line : Nat) (bindings : List (String × Word)) (words : List Word)
  /-- A statement, and the sinks of its two outputs. -/
  | redirected (line : Nat) (sinks : List (Bool × Sink)) (inner : Statement)
  /-- The second one if the first one succeeds. -/
  | both (first second : Statement)
  /-- The second one if the first one fails. -/
  | either (first second : Statement)
  /-- Succeeds if the inner one fails. -/
  | negated (inner : Statement)
  /-- One of two bodies. -/
  | choice (condition yes no : List Statement)
  /-- A body as long as the condition succeeds, or as long as it fails. -/
  | repeated (wanted : Bool) (condition body : List Statement)
  /-- A body for each field of the words. -/
  | loop (variableName : String) (words : List Word) (body : List Statement)
  /-- The first body with a pattern that matches the subject. -/
  | cases (subject : Word) (branches : List (List Word × List Statement))
  /-- Statements that are one; in a shell of their own, they change nothing but files. -/
  | group (ownShell : Bool) (body : List Statement)

end GoScaffold.Script
