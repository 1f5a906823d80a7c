set_option autoImplicit false

/-! # Cutting texts

Splitting, trimming and joining on lists of characters. Splitting at every character of a class
keeps the empty pieces, so that the pieces and the cuts between them make up the whole text. -/

namespace GoScaffold.Text

/-- A function on characters, as a function on strings. -/
def onChars (f : List Char → List Char) (s : String) : String := String.ofList (f s.toList)

@[simp] theorem toList_onChars (f : List Char → List Char) (s : String) :
    (onChars f s).toList = f s.toList := by
  simp [onChars]

/-! ## Splitting -/

/-- The pieces between the items that satisfy `p`; one more piece than cuts. -/
def splitWhere {α : Type} (p : α → Bool) : List α → List (List α)
  | [] => [[]]
  | c :: cs =>
    if p c then [] :: splitWhere p cs
    else
      match splitWhere p cs with
      | [] => [[c]]
      | piece :: pieces => (c :: piece) :: pieces

theorem splitWhere_ne_nil {α : Type} (p : α → Bool) (cs : List α) : splitWhere p cs ≠ [] := by
  induction cs with
  | nil => simp [splitWhere]
  | cons c cs ih =>
    simp only [splitWhere]
    split
    · simp
    · split <;> simp

/-- What stands before and after the first `sep`, if there is one. -/
def splitOnce (sep : Char) : List Char → Option (List Char × List Char)
  | [] => none
  | c :: cs =>
    if c = sep then some ([], cs) else (splitOnce sep cs).map fun (before, after) => (c :: before, after)

theorem splitOnce_eq_some {sep : Char} {cs before after : List Char}
    (h : splitOnce sep cs = some (before, after)) :
    cs = before ++ sep :: after ∧ sep ∉ before := by
  induction cs generalizing before with
  | nil => simp [splitOnce] at h
  | cons c cs ih =>
    simp only [splitOnce] at h
    split at h
    · next hc =>
      simp only [Option.some.injEq, Prod.mk.injEq] at h
      obtain ⟨rfl, rfl⟩ := h
      simp [hc]
    · next hc =>
      simp only [Option.map_eq_some_iff, Prod.mk.injEq, Prod.exists] at h
      obtain ⟨b, a, hb, rfl, rfl⟩ := h
      obtain ⟨rfl, hnot⟩ := ih hb
      exact ⟨rfl, by simp [hnot, Ne.symm hc]⟩

/-! ## Trimming -/

/-- Drops the longest end of characters that satisfy `p`. -/
def dropEndWhile (p : Char → Bool) : List Char → List Char
  | [] => []
  | c :: cs =>
    match dropEndWhile p cs with
    | [] => if p c then [] else [c]
    | kept => c :: kept

/-- Drops the characters that satisfy `p` from both ends. -/
def trimWhere (p : Char → Bool) (cs : List Char) : List Char :=
  dropEndWhile p (cs.dropWhile p)

/-- The text without `start` at its front, if it starts so. -/
def dropPrefix? : (start cs : List Char) → Option (List Char)
  | [], cs => some cs
  | _ :: _, [] => none
  | a :: start, c :: cs => if a = c then dropPrefix? start cs else none

theorem dropPrefix?_eq_some {start cs rest : List Char} :
    dropPrefix? start cs = some rest ↔ cs = start ++ rest := by
  induction start generalizing cs with
  | nil => simp [dropPrefix?]
  | cons a start ih =>
    cases cs with
    | nil => simp [dropPrefix?]
    | cons c cs =>
      by_cases h : a = c
      · simp [dropPrefix?, h, ih]
      · simp [dropPrefix?, h, Ne.symm h]

/-- The text without `c` at its end, if it ends so. -/
def dropLastChar? (c : Char) : List Char → Option (List Char)
  | [] => none
  | [d] => if d = c then some [] else none
  | d :: ds => (dropLastChar? c ds).map (d :: ·)

/-- What stands between a leading and a trailing `c`, if the text has both. -/
def between? (opening closing : Char) : List Char → Option (List Char)
  | [] => none
  | c :: cs => if c = opening then dropLastChar? closing cs else none

theorem dropLastChar?_eq_some {c : Char} {cs ds : List Char} :
    dropLastChar? c cs = some ds ↔ cs = ds ++ [c] := by
  induction cs generalizing ds with
  | nil => simp [dropLastChar?]
  | cons d cs ih =>
    cases cs with
    | nil =>
      simp only [dropLastChar?]
      split
      · next h => cases ds <;> simp [h]
      · next h => cases ds <;> simp [h]
    | cons e es =>
      simp only [dropLastChar?, Option.map_eq_some_iff]
      constructor
      · rintro ⟨fs, hfs, rfl⟩
        simp [ih.1 hfs]
      · intro h
        cases ds with
        | nil => simp at h
        | cons f fs =>
          simp only [List.cons_append, List.cons.injEq] at h
          exact ⟨fs, ih.2 h.2, by simp [h.1]⟩

theorem between?_eq_some {opening closing : Char} {cs ds : List Char} :
    between? opening closing cs = some ds ↔ cs = opening :: (ds ++ [closing]) := by
  cases cs with
  | nil => simp [between?]
  | cons c cs =>
    simp only [between?]
    split
    · next h => simp [dropLastChar?_eq_some, h]
    · next h => simp [h]

/-! ## Joining -/

/-- The texts with `sep` between each two of them. -/
def join (sep : String) : List String → String
  | [] => ""
  | [s] => s
  | s :: t :: rest => s ++ sep ++ join sep (t :: rest)

/-- The texts one after another. -/
def concat : List String → String
  | [] => ""
  | s :: rest => s ++ concat rest

@[simp] theorem concat_append (as bs : List String) : concat (as ++ bs) = concat as ++ concat bs := by
  induction as with
  | nil => simp [concat]
  | cons a as ih => simp [concat, ih, String.append_assoc]

end GoScaffold.Text
