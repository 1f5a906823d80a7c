import GoScaffold.Go.File
import GoScaffold.Proofs.Text.Names

set_option autoImplicit false

/-! # The functions of Go code

A function stands at the outermost depth and begins with `func`; the deeper lines after it are its
body. What is read off code so is what its declarations declare, whatever names and comments stand
in it (`functions_signed`). -/

namespace GoScaffold.Go

open Text

/-! ## Reading functions -/

/-- A function of Go code: the line that opens it, and the lines of its body. -/
structure FuncDecl where
  head : String
  body : Code
  deriving DecidableEq, Repr

/-- Whether a line begins a function. -/
def isFunc (text : String) : Bool := "func ".toList.isPrefixOf text.toList

/-- The functions of code, in order. -/
def functions : Code → List FuncDecl
  | [] => []
  | l :: rest =>
    if l.depth = 0 ∧ isFunc l.text = true then
      ⟨l.text, rest.takeWhile fun l => decide (0 < l.depth)⟩ :: functions rest
    else functions rest

/-- Whether code begins at the outermost depth. -/
def IsFlush (c : Code) : Prop := ∀ l ∈ c.head?, l.depth = 0

theorem isFlush_nil : IsFlush [] := by
  intro l hl
  cases hl

theorem isFlush_cons {l : Line} (h : l.depth = 0) (c : Code) : IsFlush (l :: c) := by
  intro k hk
  obtain rfl : l = k := by simpa using hk
  exact h

theorem isFlush_append {a b : Code} (ha : IsFlush a) (hb : IsFlush b) : IsFlush (a ++ b) := by
  cases a with
  | nil => exact hb
  | cons l a => exact isFlush_cons (ha l rfl) _

theorem isFlush_flatMap {α : Type} {f : α → Code} (h : ∀ x, IsFlush (f x)) (xs : List α) :
    IsFlush (xs.flatMap f) := by
  induction xs with
  | nil => exact isFlush_nil
  | cons x xs ih => exact isFlush_append (h x) ih

theorem isFlush_line (text : String) : IsFlush (line text) := isFlush_cons rfl []

theorem isFlush_gap : IsFlush gap := isFlush_line ""

theorem isFlush_declaration (head : String) (body : Code) : IsFlush (declaration head body) :=
  isFlush_cons rfl _

/-! ## Declarations of parts -/

section

variable (opens : String → Bool)

/-- The lines at the outermost depth that open a declaration, each with the deeper lines after it. -/
def opened : Code → List (String × Code)
  | [] => []
  | l :: rest =>
    if l.depth = 0 ∧ opens l.text = true then
      (l.text, rest.takeWhile fun l => decide (0 < l.depth)) :: opened rest
    else opened rest

/-- What begins at the outermost depth has its declarations apart from those before it. -/
theorem opened_append {a b : Code} (hb : IsFlush b) :
    opened opens (a ++ b) = opened opens a ++ opened opens b := by
  have hnone : b.takeWhile (fun l => decide (0 < l.depth)) = [] := by
    cases b with
    | nil => rfl
    | cons l b =>
      have hl : l.depth = 0 := hb l rfl
      rw [List.takeWhile_cons_of_neg (by simp [hl])]
  induction a with
  | nil => rfl
  | cons l a ih =>
    have hbody : (a ++ b).takeWhile (fun l => decide (0 < l.depth))
        = a.takeWhile fun l => decide (0 < l.depth) := by
      rw [List.takeWhile_append]
      split
      · next hall =>
        rw [hnone, List.append_nil]
        exact ((List.takeWhile_prefix _).eq_of_length hall).symm
      · rfl
    rw [List.cons_append, opened, opened, ih, hbody]
    split <;> rfl

theorem opened_flatMap {α : Type} {f : α → Code} (h : ∀ x, IsFlush (f x)) (xs : List α) :
    opened opens (xs.flatMap f) = xs.flatMap fun x => opened opens (f x) := by
  induction xs with
  | nil => rfl
  | cons x xs ih =>
    rw [List.flatMap_cons, opened_append opens (isFlush_flatMap h xs), ih, List.flatMap_cons]

variable {opens}

theorem opened_line {text : String} (h : opens text = false) : opened opens (line text) = [] := by
  simp [opened, line, h]

/-- Deeper lines open nothing. -/
theorem opened_indent_append (c rest : Code) :
    opened opens (indent c ++ rest) = opened opens rest := by
  induction c with
  | nil => rfl
  | cons l c ih =>
    have hdeep : ¬(l.depth + 1 = 0 ∧ opens l.text = true) := by omega
    rw [← ih]
    exact if_neg hdeep

/-- A body between two lines is the body of one declaration, or it holds none. -/
theorem opened_enclosed (opening : String) (body : Code) {closing : String}
    (h : opens closing = false) :
    opened opens (enclosed opening body closing)
      = if opens opening = true then [(opening, indent body)] else [] := by
  have hrest : opened opens (indent body ++ line closing) = [] := by
    rw [opened_indent_append, opened_line h]
  have hbody : (indent body ++ line closing).takeWhile (fun l => decide (0 < l.depth))
      = indent body := by
    rw [List.takeWhile_append_of_pos (fun l hl => ?_), line, List.takeWhile_cons_of_neg (by simp),
      List.append_nil]
    obtain ⟨k, -, rfl⟩ := List.mem_map.1 hl
    simp
  rw [enclosed, List.append_assoc, line, List.singleton_append, opened, hbody, hrest]
  simp

/-- A block with an empty line after it is one declaration, or it holds none. -/
theorem opened_declaration (hblank : opens "" = false) (hbrace : opens "\x7d" = false) (head : String)
    (body : Code) :
    opened opens (declaration head body)
      = if opens (head ++ " \x7b") = true then [(head ++ " \x7b", indent body)] else [] := by
  rw [declaration, opened_append opens isFlush_gap, gap, opened_line hblank, List.append_nil, block,
    opened_enclosed _ _ hbrace]

theorem opened_heading (hblank : opens "" = false)
    (hcomment : ∀ text, opens ("// " ++ text) = false) (title : String) :
    opened opens (heading title) = [] := by
  have hline : "// ==================== " ++ title ++ " ===================="
      = "// " ++ ("==================== " ++ title ++ " ====================") :=
    String.toList_inj.1 (by simp)
  rw [heading, opened_append opens isFlush_gap, gap, opened_line hblank, hline,
    opened_line (hcomment _), List.append_nil]

end

/-! ## Functions of parts -/

/-- A declaration as a function. -/
def FuncDecl.ofOpened (d : String × Code) : FuncDecl := ⟨d.1, d.2⟩

theorem functions_eq (c : Code) : functions c = (opened isFunc c).map FuncDecl.ofOpened := by
  induction c with
  | nil => rfl
  | cons l c ih =>
    rw [functions, opened, ih]
    split <;> rfl

/-- What begins at the outermost depth has its functions apart from those before it. -/
theorem functions_append {a b : Code} (hb : IsFlush b) :
    functions (a ++ b) = functions a ++ functions b := by
  rw [functions_eq, opened_append isFunc hb, List.map_append, ← functions_eq, ← functions_eq]

theorem functions_flatMap {α : Type} {f : α → Code} (h : ∀ x, IsFlush (f x)) (xs : List α) :
    functions (xs.flatMap f) = xs.flatMap fun x => functions (f x) := by
  simp only [functions_eq, opened_flatMap isFunc h, List.map_flatMap]

theorem functions_line {text : String} (h : isFunc text = false) : functions (line text) = [] := by
  rw [functions_eq, opened_line h, List.map_nil]

theorem functions_gap : functions gap = [] := functions_line (by decide)

theorem functions_declaration (head : String) (body : Code) :
    functions (declaration head body)
      = if isFunc (head ++ " \x7b") = true then [⟨head ++ " \x7b", indent body⟩] else [] := by
  rw [functions_eq, opened_declaration (by decide) (by decide)]
  split <;> rfl

/-- A declaration of something else holds no function. -/
theorem functions_declaration_of_not {head : String} (body : Code)
    (h : isFunc (head ++ " \x7b") = false) : functions (declaration head body) = [] := by
  rw [functions_declaration, if_neg (by simp [h])]

/-- A line is no beginning of a function if it begins with another character. -/
theorem isFunc_eq_false {text : String} (h : text.toList.head? ≠ some 'f') :
    isFunc text = false := by
  rw [Bool.eq_false_iff]
  intro hfunc
  obtain ⟨rest, hrest⟩ := List.isPrefixOf_iff_prefix.1 hfunc
  rw [← hrest] at h
  exact h rfl

theorem functions_heading (title : String) : functions (heading title) = [] := by
  rw [functions_eq, opened_heading (by decide) (fun text => isFunc_eq_false (by simp)), List.map_nil]

/-! ## Signatures -/

/-- Types of results as a head declares them. -/
def resultText : List String → String
  | [] => ""
  | [type] => " " ++ type
  | types => " (" ++ join ", " types ++ ")"

/-- What the head of a function declares. -/
structure Signature where
  receiver : Option String
  name : String
  parameters : String
  results : List String
  deriving DecidableEq, Repr

namespace Signature

/-- What stands before the name. -/
def front (s : Signature) : String :=
  match s.receiver with
  | some receiver => "func (" ++ receiver ++ ") "
  | none => "func "

/-- The head of the function. -/
def text (s : Signature) : String :=
  s.front ++ s.name ++ "(" ++ s.parameters ++ ")" ++ resultText s.results

/-- The function with this signature. -/
def declare (s : Signature) (body : Code) : FuncDecl := ⟨s.text ++ " \x7b", indent body⟩

theorem isFunc_text (s : Signature) (rest : String) : isFunc (s.text ++ rest) = true := by
  rw [isFunc, List.isPrefixOf_iff_prefix]
  unfold text front
  cases s.receiver with
  | none => exact ⟨(s.name ++ "(" ++ s.parameters ++ ")" ++ resultText s.results ++ rest).toList,
      by simp [String.toList_append]⟩
  | some receiver =>
    exact ⟨("(" ++ receiver ++ ") " ++ s.name ++ "(" ++ s.parameters ++ ")" ++ resultText s.results
      ++ rest).toList, by simp [String.toList_append]⟩

end Signature

/-- A declaration under a signature is one function. -/
theorem functions_signed (s : Signature) (body : Code) :
    functions (declaration s.text body) = [s.declare body] := by
  rw [functions_declaration, if_pos (s.isFunc_text _)]
  rfl

/-! ## Names -/

/-- Whether a text is a name as they are made from tables and columns. -/
def IsName (s : String) : Prop := ∀ c ∈ s.toList, isNameChar c = true

instance (s : String) : Decidable (IsName s) :=
  inferInstanceAs (Decidable (∀ c ∈ s.toList, isNameChar c = true))

theorem isName_append {s t : String} (hs : IsName s) (ht : IsName t) : IsName (s ++ t) := by
  intro c hc
  rw [String.toList_append, List.mem_append] at hc
  exact hc.elim (hs c) (ht c)

theorem isName_upperCamel (s : String) : IsName (Naming.upperCamel s) :=
  fun _ hc => Naming.isNameChar_upperCamel _ hc

theorem isName_concat {names : List String} (h : ∀ s ∈ names, IsName s) : IsName (concat names) := by
  induction names with
  | nil => exact fun c hc => absurd hc (by simp [concat])
  | cons s names ih =>
    exact isName_append (h s (List.mem_cons_self ..)) (ih fun t ht => h t (List.mem_cons_of_mem _ ht))

/-- A name is read up to the first character that none holds. -/
theorem takeWhile_name {name : String} (h : IsName name) {rest : List Char}
    (hrest : ∀ c ∈ rest.head?, isNameChar c = false) :
    (name.toList ++ rest).takeWhile isNameChar = name.toList := by
  rw [List.takeWhile_append_of_pos h]
  cases rest with
  | nil => simp
  | cons c rest => rw [List.takeWhile_cons_of_neg (by simp [hrest c rfl]), List.append_nil]

theorem takeWhile_name_cons {name : String} (h : IsName name) {d : Char}
    (hd : isNameChar d = false) (rest : List Char) :
    (name.toList ++ d :: rest).takeWhile isNameChar = name.toList := by
  refine takeWhile_name h fun c hc => ?_
  obtain rfl : d = c := by simpa using hc
  exact hd

namespace FuncDecl

/-- The name of the function; empty for a method. -/
def name (f : FuncDecl) : String := String.ofList ((f.head.toList.drop 5).takeWhile isNameChar)

/-- The name of the method, if the function is a method of this receiver. -/
def methodOf? (receiver : String) (f : FuncDecl) : Option String :=
  (dropPrefix? ("func (" ++ receiver ++ ") ").toList f.head.toList).map fun rest =>
    String.ofList (rest.takeWhile isNameChar)

theorem name_declare {s : Signature} (hname : IsName s.name) (hreceiver : s.receiver = none)
    (body : Code) : (s.declare body).name = s.name := by
  have hhead : (s.declare body).head.toList.drop 5
      = s.name.toList ++ ("(" ++ s.parameters ++ ")" ++ resultText s.results ++ " \x7b").toList := by
    simp [Signature.declare, Signature.text, Signature.front, hreceiver, String.toList_append]
  rw [name, hhead, takeWhile_name hname (by simp [isNameChar]), String.ofList_toList]

theorem methodOf?_declare {s : Signature} {receiver : String} (hname : IsName s.name)
    (hreceiver : s.receiver = some receiver) (body : Code) :
    (s.declare body).methodOf? receiver = some s.name := by
  have hhead : (s.declare body).head.toList
      = ("func (" ++ receiver ++ ") ").toList ++ (s.name.toList
        ++ ("(" ++ s.parameters ++ ")" ++ resultText s.results ++ " \x7b").toList) := by
    simp [Signature.declare, Signature.text, Signature.front, hreceiver, String.toList_append]
  rw [methodOf?, dropPrefix?_eq_some.2 hhead, Option.map_some,
    takeWhile_name hname (by simp [isNameChar]), String.ofList_toList]

/-- The methods of a receiver among functions that are all its methods. -/
theorem filterMap_methodOf? {α : Type} {receiver : String} (signature : α → Signature)
    (body : α → Code) (hname : ∀ x, IsName (signature x).name)
    (hreceiver : ∀ x, (signature x).receiver = some receiver) (xs : List α) :
    (xs.map fun x => (signature x).declare (body x)).filterMap (methodOf? receiver)
      = xs.map fun x => (signature x).name := by
  induction xs with
  | nil => rfl
  | cons x xs ih =>
    rw [List.map_cons, List.filterMap_cons_some (methodOf?_declare (hname x) (hreceiver x) _), ih,
      List.map_cons]

end FuncDecl

/-- The names of the methods of a receiver in code, in order. -/
def methods (receiver : String) (c : Code) : List String :=
  (functions c).filterMap (FuncDecl.methodOf? receiver)

end GoScaffold.Go

namespace GoScaffold.Convention

open Go

theorem results_eq_resultText (c : Convention) (types : List String) :
    c.results types = resultText (c.resultTypes types) := by
  unfold results
  cases c.resultTypes types with
  | nil => rfl
  | cons type types => cases types <;> rfl

end GoScaffold.Convention
