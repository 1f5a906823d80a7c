import GoScaffold.Go.Code
import GoScaffold.Proofs.Text.Paths

set_option autoImplicit false

/-! # Formats

A format is text with verbs in it. A verb is a percent sign, marks such as flags and widths, and a
letter, and takes the next argument; two percent signs print one and take none. -/

namespace GoScaffold.Go

open Text

/-- A verb of a format, after the text between it and the verb before. -/
structure Directive where
  before : List Char
  verb : List Char
  deriving DecidableEq, Repr

/-- The characters that may stand between the percent sign of a verb and its letter. -/
def isVerbMark (c : Char) : Bool := c.isDigit || "+-# .*[]".toList.contains c

/-- The verbs of a format that goes on after `before`; `marks` stand after a percent sign already, if
there is one. -/
def directivesFrom : List Char → Option (List Char) → List Char → List Directive
  | _, _, [] => []
  | before, none, c :: cs =>
    if c = '%' then directivesFrom before (some []) cs else directivesFrom (before ++ [c]) none cs
  | before, some marks, c :: cs =>
    if isVerbMark c then directivesFrom before (some (marks ++ [c])) cs
    else if c = '%' then directivesFrom (before ++ [c]) none cs
    else ⟨before, marks ++ [c]⟩ :: directivesFrom [] none cs

/-- The verbs of a format, in order. -/
def directives (cs : List Char) : List Directive := directivesFrom [] none cs

/-- Text without percent signs is passed over. -/
theorem directivesFrom_append {text : List Char} (h : '%' ∉ text) (before rest : List Char) :
    directivesFrom before none (text ++ rest) = directivesFrom (before ++ text) none rest := by
  induction text generalizing before with
  | nil => rw [List.append_nil, List.nil_append]
  | cons c text ih =>
    rw [List.mem_cons, not_or] at h
    rw [List.cons_append, directivesFrom, if_neg (Ne.symm h.1), ih h.2, List.append_assoc]
    rfl

theorem directivesFrom_verb {letter : Char} (hmark : isVerbMark letter = false) (hpercent : letter ≠ '%')
    (before rest : List Char) :
    directivesFrom before none ('%' :: letter :: rest)
      = ⟨before, [letter]⟩ :: directivesFrom [] none rest := by
  rw [directivesFrom, if_pos rfl, directivesFrom, if_neg (by simp [hmark]), if_neg hpercent]
  rfl

/-! ## Calls that print -/

/-- A statement that returns a printed text: the format and the arguments. -/
structure Printing where
  format : List Char
  arguments : List (List Char)
  deriving DecidableEq, Repr

/-- The printing that a line is. -/
def printing? (cs : List Char) : Option Printing :=
  (dropPrefix? "return fmt.Sprintf(\"".toList cs).bind fun rest =>
    (splitOnce '"' rest).bind fun (format, rest) =>
      (dropLastChar? ')' rest).map fun rest =>
        ⟨format, (splitWhere (· == ',') rest).tail.map fun argument => argument.dropWhile (· == ' ')⟩

/-- The printings that lines of code are. -/
def printings (c : Code) : List Printing := c.filterMap fun l => printing? l.text.toList

theorem printings_append (a b : Code) : printings (a ++ b) = printings a ++ printings b :=
  List.filterMap_append

theorem printings_indent (c : Code) : printings (indent c) = printings c := by
  rw [printings, indent, List.filterMap_map]
  rfl

/-- A line that begins with another character is no printing. -/
theorem printings_line_of_head {text : String} (h : text.toList.head? ≠ some 'r') :
    printings (line text) = [] := by
  have hnone : printing? text.toList = none := by
    cases hcs : text.toList with
    | nil => rfl
    | cons c cs =>
      have hc : 'r' ≠ c := by
        rintro rfl
        exact h (by rw [hcs]; rfl)
      have hdrop : dropPrefix? "return fmt.Sprintf(\"".toList (c :: cs) = none := if_neg hc
      rw [printing?, hdrop]
      rfl
  exact List.filterMap_cons_none hnone

theorem toList_concat_arguments (arguments : List String) :
    (concat (arguments.map (", " ++ ·))).toList
      = [] ++ (arguments.map fun s => ' ' :: s.toList).flatMap (',' :: ·) := by
  induction arguments with
  | nil => rfl
  | cons s arguments ih =>
    rw [List.map_cons, concat, String.toList_append, ih]
    simp

/-- The format and the arguments that are written are read back, if no quote stands in the format and
neither commas nor blanks in the arguments. -/
theorem printing?_written {format : String} {arguments : List String} (hformat : '"' ∉ format.toList)
    (harguments : ∀ s ∈ arguments, ∀ c ∈ s.toList, c ≠ ',' ∧ c ≠ ' ') :
    printing? ("return fmt.Sprintf(\"" ++ format ++ "\"" ++ concat (arguments.map (", " ++ ·)) ++ ")").toList
      = some ⟨format.toList, arguments.map (·.toList)⟩ := by
  have hline : ("return fmt.Sprintf(\"" ++ format ++ "\"" ++ concat (arguments.map (", " ++ ·)) ++ ")").toList
      = "return fmt.Sprintf(\"".toList
        ++ (format.toList ++ '"' :: ((concat (arguments.map (", " ++ ·))).toList ++ [')'])) := by
    simp
  have hpieces : ∀ piece ∈ [] :: arguments.map fun s => ' ' :: s.toList, ∀ c ∈ piece,
      (c == ',') = false := by
    refine List.forall_mem_cons.2 ⟨fun c hc => absurd hc List.not_mem_nil, fun piece hpiece => ?_⟩
    obtain ⟨s, hs, rfl⟩ := List.mem_map.1 hpiece
    refine List.forall_mem_cons.2 ⟨by decide, fun c hc => ?_⟩
    rw [beq_eq_false_iff_ne]
    exact (harguments s hs c hc).1
  have hblank : (arguments.map fun s => ' ' :: s.toList).map (fun argument => argument.dropWhile (· == ' '))
      = arguments.map (·.toList) := by
    rw [List.map_map]
    refine List.map_congr_left fun s hs => ?_
    have hfirst : ∀ c ∈ s.toList.head?, (c == ' ') = false := by
      intro c hc
      rw [beq_eq_false_iff_ne]
      exact (harguments s hs c (List.mem_of_head? hc)).2
    show (' ' :: s.toList).dropWhile (· == ' ') = s.toList
    rw [List.dropWhile_cons_of_pos (by decide)]
    cases hs : s.toList with
    | nil => rfl
    | cons c cs =>
      rw [hs] at hfirst
      rw [List.dropWhile_cons_of_neg (by simp [hfirst c rfl])]
  rw [printing?, dropPrefix?_eq_some.2 hline, Option.bind_some, splitOnce_append hformat,
    Option.bind_some]
  dsimp only
  rw [dropLastChar?_eq_some.2 rfl, Option.map_some, toList_concat_arguments,
    splitWhere_append_flatMap (by decide) hpieces, List.tail_cons, hblank]

theorem printings_written {format : String} {arguments : List String} (hformat : '"' ∉ format.toList)
    (harguments : ∀ s ∈ arguments, ∀ c ∈ s.toList, c ≠ ',' ∧ c ≠ ' ') :
    printings (line ("return fmt.Sprintf(\"" ++ format ++ "\"" ++ concat (arguments.map (", " ++ ·)) ++ ")"))
      = [⟨format.toList, arguments.map (·.toList)⟩] :=
  List.filterMap_cons_some (printing?_written hformat harguments)

end GoScaffold.Go
