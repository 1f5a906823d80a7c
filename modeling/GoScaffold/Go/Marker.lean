import GoScaffold.Text.Cut
import GoScaffold.Text.Lines

set_option autoImplicit false

/-! # Line markers

A marker in a Go file begins with `__LINE` and ends with the next two underscores on its line; what
stands between them is replaced by where the marker is: a colon, the file, a colon and the number
of the line. Markers that are stamped once are stamped again in the same way. -/

namespace GoScaffold.Go.Marker

/-- What a marker begins with. -/
def opening : List Char := "__LINE".toList

/-- What a marker ends with. -/
def closing : List Char := "__".toList

/-- What stands before and after the first occurrence of `part`, if there is one. -/
def cutAt? (part : List Char) : List Char → Option (List Char × List Char)
  | [] => if part.isEmpty then some ([], []) else none
  | c :: cs =>
    match Text.dropPrefix? part (c :: cs) with
    | some after => some ([], after)
    | none => (cutAt? part cs).map fun (before, after) => (c :: before, after)

/-- The first marker of a line: what stands before it, within it and after it. -/
def first? (line : List Char) : Option (List Char × List Char × List Char) :=
  (cutAt? opening line).bind fun (before, rest) =>
    (cutAt? closing rest).map fun (within, after) => (before, within, after)

theorem eq_of_cutAt? {part cs before after : List Char} (h : cutAt? part cs = some (before, after)) :
    cs = before ++ (part ++ after) := by
  induction cs generalizing before with
  | nil =>
    simp only [cutAt?] at h
    split at h
    · next hp =>
      simp only [Option.some.injEq, Prod.mk.injEq] at h
      obtain ⟨rfl, rfl⟩ := h
      simp [List.isEmpty_iff.1 hp]
    · simp at h
  | cons c cs ih =>
    simp only [cutAt?] at h
    split at h
    · next rest hp =>
      simp only [Option.some.injEq, Prod.mk.injEq] at h
      obtain ⟨rfl, rfl⟩ := h
      simpa using Text.dropPrefix?_eq_some.1 hp
    · simp only [Option.map_eq_some_iff, Prod.mk.injEq, Prod.exists] at h
      obtain ⟨b, a, hb, rfl, rfl⟩ := h
      simp [ih hb]

theorem length_of_first? {line before within after : List Char}
    (h : first? line = some (before, within, after)) : after.length < line.length := by
  simp only [first?, Option.bind_eq_some_iff, Option.map_eq_some_iff, Prod.exists] at h
  obtain ⟨b, rest, hopen, w, a, hclose, heq⟩ := h
  simp only [Prod.mk.injEq] at heq
  obtain ⟨rfl, rfl, rfl⟩ := heq
  have h₁ := congrArg List.length (eq_of_cutAt? hopen)
  have h₂ := congrArg List.length (eq_of_cutAt? hclose)
  simp [opening, closing] at h₁ h₂
  omega

/-- The line with `label` within each of its markers. -/
def stampLine (label line : List Char) : List Char :=
  match _h : first? line with
  | none => line
  | some (before, _, after) => before ++ opening ++ label ++ closing ++ stampLine label after
termination_by line.length
decreasing_by exact length_of_first? _h

/-- What a stamped marker holds. -/
def label (file : String) (number : Nat) : List Char := (":" ++ file ++ ":" ++ toString number).toList

/-- The lines with their markers stamped; `number` is the number of the first one. -/
def stampLines (file : String) (number : Nat) : List (List Char) → List (List Char)
  | [] => []
  | line :: rest => stampLine (label file number) line :: stampLines file (number + 1) rest

/-- The text of a file with its markers stamped. Its lines end in line feeds alone. -/
def stamp (text file : String) : String :=
  let lines := Text.splitWhere (· == '\n') (Text.unifyPairs text.toList)
  Text.join "\n" ((stampLines file 1 lines).map String.ofList)

end GoScaffold.Go.Marker
