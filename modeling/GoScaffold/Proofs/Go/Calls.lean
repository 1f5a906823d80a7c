import GoScaffold.Proofs.Go.Functions

set_option autoImplicit false

/-! # Calls in Go code

A line calls a function of a package, or a method of a field, where the call stands alone, after
`return`, or after names that its results are given. The qualifier before the function's name ends
with a dot. It may be any text otherwise, and still a call is read as what it is: nothing that
stands before a call holds a dot (`callee?_shifted`). -/

namespace GoScaffold.Go

open Text

/-! ## Reading calls -/

/-- What becomes of the results of a call. -/
inductive Taken
  /-- They are given this many names. -/
  | assigned (names : Nat)
  /-- They are the results of the function that calls. -/
  | forwarded
  | dropped
  deriving DecidableEq, Repr

/-- How many results are taken, in a function that has `own` results itself. -/
def Taken.count (own : Nat) : Taken → Nat
  | .assigned names => names
  | .forwarded => own
  | .dropped => 0

/-- A call of a function. -/
structure Call where
  callee : String
  taken : Taken
  deriving DecidableEq, Repr

/-- The name of the function that a text begins by calling behind the qualifier. -/
def callee? (qualifier cs : List Char) : Option String :=
  match dropPrefix? qualifier cs with
  | none => none
  | some rest =>
    if (rest.dropWhile isNameChar).head? = some '(' then
      some (String.ofList (rest.takeWhile isNameChar))
    else none

/-- A character of the names that results are given, or between them. -/
def isTargetChar (c : Char) : Bool := c.isLower || c == '_' || c == ',' || c == ' '

/-- How many names stand in a text, with a comma between each two. -/
def countNames (cs : List Char) : Nat := (splitWhere (· == ',') cs).length

/-- The call that a line makes, if it makes one. -/
def callOf? (qualifier cs : List Char) : Option Call :=
  match callee? qualifier cs with
  | some callee => some ⟨callee, .dropped⟩
  | none =>
    match (dropPrefix? "return ".toList cs).bind (callee? qualifier) with
    | some callee => some ⟨callee, .forwarded⟩
    | none =>
      ((dropPrefix? ":= ".toList (cs.dropWhile isTargetChar)).bind (callee? qualifier)).map
        fun callee => ⟨callee, .assigned (countNames (cs.takeWhile isTargetChar))⟩

/-- The calls in code behind a qualifier, in order. -/
def calls (qualifier : String) (c : Code) : List Call :=
  c.filterMap fun l => callOf? qualifier.toList l.text.toList

theorem calls_append (qualifier : String) (a b : Code) :
    calls qualifier (a ++ b) = calls qualifier a ++ calls qualifier b := List.filterMap_append

theorem calls_indent (qualifier : String) (c : Code) :
    calls qualifier (indent c) = calls qualifier c := by
  rw [calls, indent, List.filterMap_map]
  rfl

theorem calls_line (qualifier text : String) :
    calls qualifier (line text) = (callOf? qualifier.toList text.toList).toList := by
  rw [calls, line, List.filterMap_cons]
  cases callOf? qualifier.toList text.toList <;> rfl

theorem calls_lines_cons (qualifier text : String) (texts : List String) :
    calls qualifier (lines (text :: texts))
      = calls qualifier (line text) ++ calls qualifier (lines texts) :=
  calls_append qualifier (line text) (lines texts)

theorem calls_enclosed (qualifier opening : String) (body : Code) (closing : String) :
    calls qualifier (enclosed opening body closing)
      = calls qualifier (line opening) ++ calls qualifier body ++ calls qualifier (line closing) := by
  rw [enclosed, calls_append, calls_append, calls_indent]

/-! ## What is a call -/

section

variable {qualifier : List Char}

theorem callee?_eq_some {cs : List Char} {callee : String} :
    callee? qualifier cs = some callee
      ↔ IsName callee ∧ ∃ rest, cs = qualifier ++ (callee.toList ++ '(' :: rest) := by
  constructor
  · intro h
    unfold callee? at h
    split at h
    · cases h
    · next after hafter =>
      split at h
      · next hparen =>
        rw [Option.some.injEq] at h
        obtain ⟨rest, hrest⟩ : ∃ rest, after.dropWhile isNameChar = '(' :: rest := by
          cases hdrop : after.dropWhile isNameChar with
          | nil =>
            rw [hdrop] at hparen
            cases hparen
          | cons d rest =>
            rw [hdrop] at hparen
            cases hparen
            exact ⟨rest, rfl⟩
        refine ⟨?_, rest, ?_⟩
        · intro c hc
          rw [← h, String.toList_ofList] at hc
          exact List.all_eq_true.1 List.all_takeWhile c hc
        · rw [dropPrefix?_eq_some.1 hafter, ← h, String.toList_ofList, ← hrest,
            List.takeWhile_append_dropWhile]
      · cases h
  · rintro ⟨hname, rest, rfl⟩
    have htake := takeWhile_name_cons hname (d := '(') (by decide) rest
    have hdrop : (callee.toList ++ '(' :: rest).dropWhile isNameChar = '(' :: rest := by
      rw [List.dropWhile_append_of_pos hname, List.dropWhile_cons_of_neg (by decide)]
    unfold callee?
    rw [dropPrefix?_eq_some.2 rfl]
    simp only [hdrop, List.head?_cons, if_true, htake, String.ofList_toList]

/-- A text that does not go on with a call behind the qualifier. -/
theorem callee?_eq_none {cs : List Char} (h : ∀ rest, cs ≠ qualifier ++ rest) :
    callee? qualifier cs = none := by
  rw [Option.eq_none_iff_forall_ne_some]
  intro callee hcallee
  obtain ⟨-, rest, hrest⟩ := callee?_eq_some.1 hcallee
  exact h _ hrest

theorem bind_callee?_eq_none {start cs : List Char} (h : ∀ rest, cs ≠ start ++ (qualifier ++ rest)) :
    (dropPrefix? start cs).bind (callee? qualifier) = none := by
  cases hstart : dropPrefix? start cs with
  | none => rfl
  | some after =>
    refine callee?_eq_none fun rest hrest => h rest ?_
    rw [dropPrefix?_eq_some.1 hstart, hrest]

/-- A line is no call if it does not begin like one. -/
theorem callOf?_eq_none {cs : List Char} (hbare : callee? qualifier cs = none)
    (hreturn : ∀ rest, cs ≠ "return ".toList ++ (qualifier ++ rest))
    (hassign : ∀ rest, cs.dropWhile isTargetChar ≠ ":= ".toList ++ (qualifier ++ rest)) :
    callOf? qualifier cs = none := by
  unfold callOf?
  rw [hbare, bind_callee?_eq_none hreturn, bind_callee?_eq_none hassign]
  rfl

/-! ### Lines that are told by their fronts -/

/-- Whether no line with this front is a call behind the qualifier. -/
def rulesOut (qualifier front : List Char) : Bool :=
  !compatible front qualifier && !compatible front ("return ".toList ++ qualifier)
    && !compatible (front.dropWhile isTargetChar) (":= ".toList ++ qualifier)

theorem callOf?_of_rulesOut {front : List Char} (h : rulesOut qualifier front = true)
    (rest : List Char) : callOf? qualifier (front ++ rest) = none := by
  simp only [rulesOut, Bool.and_eq_true, Bool.not_eq_true'] at h
  obtain ⟨⟨hbare, hreturn⟩, hassign⟩ := h
  refine callOf?_eq_none (callee?_eq_none fun more hmore => ?_) (fun more hmore => ?_)
    fun more hmore => ?_
  · exact Bool.eq_false_iff.1 hbare (compatible_of_append hmore)
  · rw [← List.append_assoc] at hmore
    exact Bool.eq_false_iff.1 hreturn (compatible_of_append hmore)
  · -- The names end within the front, or nothing would be left of it.
    have hne : front.dropWhile isTargetChar ≠ [] := by
      intro hnil
      rw [hnil] at hassign
      simp [compatible] at hassign
    have hdrop : (front ++ rest).dropWhile isTargetChar = front.dropWhile isTargetChar ++ rest := by
      rw [List.dropWhile_append, if_neg (by simpa using hne)]
    rw [hdrop, ← List.append_assoc] at hmore
    exact Bool.eq_false_iff.1 hassign (compatible_of_append hmore)

end

theorem calls_of_rulesOut {qualifier front : String}
    (h : rulesOut qualifier.toList front.toList = true) (rest : String) :
    calls qualifier (line (front ++ rest)) = [] := by
  rw [calls_line, String.toList_append, callOf?_of_rulesOut h]
  rfl

/-! ## Calls behind a dot -/

section

variable (package : List Char) {name : String}

/-- A text without dots before a qualifier does not begin with the qualifier. -/
theorem callee?_shifted {w : List Char} (hne : w ≠ []) (hw : '.' ∉ w) (rest : List Char) :
    callee? (package ++ ['.']) (w ++ (package ++ ['.'] ++ rest)) = none := by
  refine callee?_eq_none fun more hmore => ?_
  rw [List.append_assoc, List.append_assoc] at hmore
  exact hw (mem_of_shifted hne hmore)

theorem callOf?_bare (hname : IsName name) (rest : List Char) :
    callOf? (package ++ ['.']) (package ++ ['.'] ++ (name.toList ++ '(' :: rest))
      = some ⟨name, .dropped⟩ := by
  unfold callOf?
  rw [callee?_eq_some.2 ⟨hname, rest, rfl⟩]

theorem callOf?_return (hname : IsName name) (rest : List Char) :
    callOf? (package ++ ['.'])
        ("return ".toList ++ (package ++ ['.'] ++ (name.toList ++ '(' :: rest)))
      = some ⟨name, .forwarded⟩ := by
  unfold callOf?
  rw [callee?_shifted package (by decide) (by decide), dropPrefix?_eq_some.2 rfl, Option.bind_some,
    callee?_eq_some.2 ⟨hname, rest, rfl⟩]

/-- A call whose results are given names. -/
theorem callOf?_assign {targets : List Char} (htargets : ∀ c ∈ targets, isTargetChar c = true)
    (hfirst : targets.head? ≠ some 'r') (hname : IsName name) (rest : List Char) :
    callOf? (package ++ ['.'])
        (targets ++ (":= ".toList ++ (package ++ ['.'] ++ (name.toList ++ '(' :: rest))))
      = some ⟨name, .assigned (countNames targets)⟩ := by
  have hdot : '.' ∉ targets ++ ":= ".toList := by
    rw [List.mem_append, not_or]
    exact ⟨fun h => absurd (htargets _ h) (by decide), by decide⟩
  have hbare : callee? (package ++ ['.'])
      (targets ++ (":= ".toList ++ (package ++ ['.'] ++ (name.toList ++ '(' :: rest)))) = none := by
    rw [← List.append_assoc targets]
    exact callee?_shifted package (List.append_ne_nil_of_right_ne_nil _ (by decide)) hdot _
  have hreturn : ∀ more, targets ++ (":= ".toList
      ++ (package ++ ['.'] ++ (name.toList ++ '(' :: rest)))
        ≠ "return ".toList ++ (package ++ ['.'] ++ more) := by
    intro more hmore
    cases targets with
    | nil =>
      have := congrArg List.head? hmore
      simp at this
    | cons c targets =>
      have := congrArg List.head? hmore
      simp at this
      exact hfirst (by simp [this])
  have htake : (targets ++ (":= ".toList
      ++ (package ++ ['.'] ++ (name.toList ++ '(' :: rest)))).takeWhile isTargetChar = targets := by
    rw [List.takeWhile_append_of_pos htargets]
    simp [isTargetChar]
  have hdrop : (targets ++ (":= ".toList
      ++ (package ++ ['.'] ++ (name.toList ++ '(' :: rest)))).dropWhile isTargetChar
      = ":= ".toList ++ (package ++ ['.'] ++ (name.toList ++ '(' :: rest)) := by
    rw [List.dropWhile_append_of_pos htargets]
    simp [isTargetChar]
  unfold callOf?
  rw [hbare, bind_callee?_eq_none hreturn, htake, hdrop, dropPrefix?_eq_some.2 rfl,
    Option.bind_some, callee?_eq_some.2 ⟨hname, rest, rfl⟩]
  rfl

end

section

variable {package name text : String} {rest : List Char}

theorem toList_qualifier (package : String) :
    (package ++ ".").toList = package.toList ++ ['.'] := by
  simp

theorem calls_bare (hname : IsName name)
    (h : text.toList = package.toList ++ ['.'] ++ (name.toList ++ '(' :: rest)) :
    calls (package ++ ".") (line text) = [⟨name, .dropped⟩] := by
  rw [calls_line, toList_qualifier, h, callOf?_bare package.toList hname]
  rfl

theorem calls_return (hname : IsName name)
    (h : text.toList = "return ".toList ++ (package.toList ++ ['.'] ++ (name.toList ++ '(' :: rest))) :
    calls (package ++ ".") (line text) = [⟨name, .forwarded⟩] := by
  rw [calls_line, toList_qualifier, h, callOf?_return package.toList hname]
  rfl

theorem calls_assign {targets : List Char} (htargets : ∀ c ∈ targets, isTargetChar c = true)
    (hfirst : targets.head? ≠ some 'r') (hname : IsName name)
    (h : text.toList
      = targets ++ (":= ".toList ++ (package.toList ++ ['.'] ++ (name.toList ++ '(' :: rest)))) :
    calls (package ++ ".") (line text) = [⟨name, .assigned (countNames targets)⟩] := by
  rw [calls_line, toList_qualifier, h, callOf?_assign package.toList htargets hfirst hname]
  rfl

end

/-! ### Lines that call nothing -/

section

variable (package : List Char) {name : String}

/-- A line without dots calls nothing. -/
theorem callOf?_of_notMem {cs : List Char} (h : '.' ∉ cs) : callOf? (package ++ ['.']) cs = none := by
  refine callOf?_eq_none (callee?_eq_none fun rest hrest => ?_) (fun rest hrest => ?_)
    fun rest hrest => ?_
  · exact h (by simp [hrest])
  · exact h (by simp [hrest])
  · refine h ((List.dropWhile_sublist isTargetChar).subset ?_)
    simp [hrest]

/-- A field that is set is not called. -/
theorem callOf?_setField (hname : IsName name) {value : List Char} (hvalue : '.' ∉ value) :
    callOf? (package ++ ['.']) ('s' :: '.' :: (name.toList ++ ' ' :: value)) = none := by
  have hdot : '.' ∉ name.toList ++ ' ' :: value := by
    rw [List.mem_append, List.mem_cons, not_or, not_or]
    exact ⟨fun h => absurd (hname _ h) (by decide), by decide, hvalue⟩
  refine callOf?_eq_none ?_ (fun rest hrest => ?_) fun rest hrest => ?_
  · rw [Option.eq_none_iff_forall_ne_some]
    intro callee hcallee
    obtain ⟨hcalleeName, rest, hrest⟩ := callee?_eq_some.1 hcallee
    -- The dot after `s` is the only one, so the qualifier ends with it, and no `(` follows the name.
    rcases package with _ | ⟨c, _ | ⟨d, package⟩⟩
    · simp at hrest
    · simp only [List.cons_append, List.nil_append, List.cons.injEq, true_and] at hrest
      have hsame : name.toList = callee.toList := by
        rw [← takeWhile_name_cons hname (d := ' ') (by decide) value, hrest.2,
          takeWhile_name_cons hcalleeName (by decide)]
      have hmore := hrest.2
      rw [hsame, List.append_cancel_left_eq, List.cons.injEq] at hmore
      exact absurd hmore.1 (by decide)
    · simp only [List.cons_append, List.cons.injEq] at hrest
      exact hdot (by simp [hrest.2.2])
  · simp at hrest
  · simp [isTargetChar] at hrest

end

/-- Code without dots calls nothing. -/
theorem calls_of_notMem {package : String} {c : Code} (h : ∀ l ∈ c, '.' ∉ l.text.toList) :
    calls (package ++ ".") c = [] := by
  rw [calls, List.filterMap_eq_nil_iff]
  intro l hl
  rw [toList_qualifier]
  exact callOf?_of_notMem package.toList (h l hl)

theorem calls_setField {package name : String} (hname : IsName name) {text : String}
    {value : List Char} (hvalue : '.' ∉ value)
    (h : text.toList = 's' :: '.' :: (name.toList ++ ' ' :: value)) :
    calls (package ++ ".") (line text) = [] := by
  rw [calls_line, toList_qualifier, h, callOf?_setField package.toList hname hvalue]
  rfl

end GoScaffold.Go
