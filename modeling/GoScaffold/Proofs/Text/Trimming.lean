import Mathlib.Data.List.DropRight
import GoScaffold.Text.Blank

set_option autoImplicit false

/-! # Trimming

Trimming takes characters of a class off both ends of a text, and leaves the text as it is exactly if
it neither begins nor ends with one of them (`trimWhere_eq_self_iff`). -/

namespace GoScaffold.Text

variable {p : Char → Bool}

/-! ## Ends -/

theorem dropEndWhile_eq_rdropWhile (p : Char → Bool) (cs : List Char) :
    dropEndWhile p cs = cs.rdropWhile p := by
  induction cs with
  | nil => rfl
  | cons c cs ih =>
    have hsnoc : (c :: cs).rdropWhile p = ((cs.reverse ++ [c]).dropWhile p).reverse := by
      rw [List.rdropWhile, List.reverse_cons]
    rw [dropEndWhile, ih, hsnoc, List.dropWhile_append, List.rdropWhile]
    cases cs.reverse.dropWhile p using List.reverseRecOn with
    | nil => cases hc : p c <;> simp [hc]
    | append_singleton ds d => simp

theorem exists_dropEndWhile (p : Char → Bool) (cs : List Char) :
    ∃ trail, cs = dropEndWhile p cs ++ trail ∧ ∀ c ∈ trail, p c = true := by
  rw [dropEndWhile_eq_rdropWhile]
  exact ⟨cs.rtakeWhile p, List.rdropWhile_append_rtakeWhile.symm, fun _ => List.mem_rtakeWhile_imp⟩

theorem dropEndWhile_cons_of_neg {c : Char} (cs : List Char) (h : p c = false) :
    dropEndWhile p (c :: cs) = c :: dropEndWhile p cs := by
  rw [dropEndWhile]
  cases dropEndWhile p cs with
  | nil => simp [h]
  | cons d ds => rfl

theorem dropEndWhile_append (cs ds : List Char)
    (h : ∀ c ∈ cs.getLast?, p c = false) :
    dropEndWhile p (cs ++ ds) = cs ++ dropEndWhile p ds := by
  induction cs with
  | nil => rfl
  | cons c cs ih =>
    cases cs with
    | nil => exact dropEndWhile_cons_of_neg ds (h c rfl)
    | cons d cs =>
      rw [List.cons_append, dropEndWhile, ih (by simpa using h)]
      rfl

/-! ## Both ends -/

theorem trimWhere_sublist (p : Char → Bool) (cs : List Char) : (trimWhere p cs).Sublist cs := by
  rw [trimWhere, dropEndWhile_eq_rdropWhile]
  exact (List.rdropWhile_prefix ..).sublist.trans (List.dropWhile_sublist p)

theorem trimBlank_cons_of_neg {c : Char} (cs : List Char) (h : isBlank c = false) :
    trimBlank (c :: cs) = c :: dropEndWhile isBlank cs := by
  rw [trimBlank, trimWhere, List.dropWhile_cons_of_neg (by simp [h]), dropEndWhile_cons_of_neg cs h]

/-- What is left after two steps that only take away is the whole if each leaves the whole. -/
theorem comp_eq_self_iff {f g : List Char → List Char} (hf : ∀ cs, (f cs).Sublist cs)
    (hg : ∀ cs, (g cs).Sublist cs) {cs : List Char} : f (g cs) = cs ↔ g cs = cs ∧ f cs = cs := by
  constructor
  · intro h
    have hkept : g cs = cs := by
      refine (hg cs).eq_of_length_le ?_
      calc cs.length = (f (g cs)).length := by rw [h]
        _ ≤ (g cs).length := (hf (g cs)).length_le
    rw [hkept] at h
    exact ⟨hkept, h⟩
  · rintro ⟨hkept, h⟩
    rw [hkept, h]

/-- Trimming leaves a text if and only if it neither begins nor ends with a character to trim. -/
theorem trimWhere_eq_self_iff {cs : List Char} :
    trimWhere p cs = cs ↔ (∀ c ∈ cs.head?, p c = false) ∧ ∀ c ∈ cs.getLast?, p c = false := by
  have hfirst : cs.dropWhile p = cs ↔ ∀ c ∈ cs.head?, p c = false := by
    cases cs with
    | nil => simp
    | cons c cs => simp [List.dropWhile_eq_self_iff]
  have hlast : cs.rdropWhile p = cs ↔ ∀ c ∈ cs.getLast?, p c = false := by
    rw [List.rdropWhile_eq_self_iff]
    cases cs using List.reverseRecOn with
    | nil => simp
    | append_singleton cs c => simp
  rw [← hfirst, ← hlast, trimWhere, dropEndWhile_eq_rdropWhile]
  exact comp_eq_self_iff (fun _ => (List.rdropWhile_prefix ..).sublist)
    fun _ => List.dropWhile_sublist p

/-- Trimming once is enough. -/
theorem trimWhere_trimWhere (p : Char → Bool) (cs : List Char) :
    trimWhere p (trimWhere p cs) = trimWhere p cs := by
  rw [trimWhere_eq_self_iff, trimWhere, dropEndWhile_eq_rdropWhile]
  obtain ⟨trail, htrail⟩ := List.rdropWhile_prefix p (cs.dropWhile p)
  refine ⟨fun c hc => ?_, fun c hc => ?_⟩
  -- What is kept begins as the text does without the characters before it.
  · have hfirst := List.head?_dropWhile_not p cs
    rw [← htrail, List.head?_append, Option.mem_def.1 hc] at hfirst
    simpa using hfirst
  · obtain ⟨hne, rfl⟩ := List.mem_getLast?_eq_getLast hc
    simpa using List.rdropWhile_last_not p (cs.dropWhile p) hne

theorem trimBlank_trimBlank (cs : List Char) : trimBlank (trimBlank cs) = trimBlank cs :=
  trimWhere_trimWhere isBlank cs

/-- Trimming leaves a text that begins and ends with kept characters. -/
theorem trimWhere_eq_self {c d : Char} (cs : List Char) (hc : p c = false) (hd : p d = false) :
    trimWhere p (c :: (cs ++ [d])) = c :: (cs ++ [d]) := by
  refine trimWhere_eq_self_iff.2 ⟨?_, ?_⟩
  · simpa using hc
  · rw [← List.cons_append, List.getLast?_concat]
    simpa using hd

/-- Trimming leaves a text without characters to trim. -/
theorem trimWhere_eq_self_of_forall {cs : List Char} (h : ∀ c ∈ cs, p c = false) :
    trimWhere p cs = cs :=
  trimWhere_eq_self_iff.2
    ⟨fun c hc => h c (List.mem_of_mem_head? hc), fun c hc => h c (List.mem_of_mem_getLast? hc)⟩

end GoScaffold.Text
