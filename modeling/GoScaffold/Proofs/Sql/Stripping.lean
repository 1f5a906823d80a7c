import GoScaffold.Proofs.Sql.Splitting
import GoScaffold.Proofs.Text.Capitals
import GoScaffold.Proofs.Text.Lines

set_option autoImplicit false

/-! # Removing comments adds nothing

Removing comments only takes characters away, but for line feeds that stand for carriage returns. So
a text without `;` stays one statement (`statements_of_notMem`). -/

namespace GoScaffold.Sql

open Text

theorem mem_unifyNewlines {c : Char} {cs : List Char} (h : c ∈ unifyNewlines cs) :
    c ∈ cs ∨ c = '\n' := by
  fun_induction unifyNewlines cs with
  | case1 => simp at h
  | case2 cs ih =>
    rcases List.mem_cons.1 h with rfl | h
    · exact Or.inr rfl
    · exact (ih h).imp (fun h => List.mem_cons_of_mem _ (List.mem_cons_of_mem _ h)) id
  | case3 cs hcs ih =>
    rcases List.mem_cons.1 h with rfl | h
    · exact Or.inr rfl
    · exact (ih h).imp (List.mem_cons_of_mem _) id
  | case4 d cs hpair hreturn ih =>
    rcases List.mem_cons.1 h with rfl | h
    · exact Or.inl (List.mem_cons_self ..)
    · exact (ih h).imp (List.mem_cons_of_mem _) id

theorem dropBlocks_sublist (inside : Bool) (cs : List Char) : (dropBlocks inside cs).Sublist cs := by
  fun_induction dropBlocks inside cs with
  | case1 => exact List.Sublist.refl _
  | case2 cs ih => exact (ih.cons _).cons _
  | case3 c cs hclose ih => exact ih.cons _
  | case4 cs hclosed ih => exact (ih.cons _).cons _
  | case5 cs hclosed ih => exact (ih.cons_cons _).cons_cons _
  | case6 c cs hopen ih => exact ih.cons_cons _

theorem beforeMarker_sublist (marker line : List Char) :
    (beforeMarker marker line).Sublist line := by
  induction line with
  | nil => exact List.Sublist.refl _
  | cons c cs ih =>
    rw [beforeMarker]
    split
    · exact List.nil_sublist _
    · exact ih.cons_cons _

theorem cutEnded_ne_nil (marker line : List Char) (ls : List (List Char)) :
    cutEnded marker (line :: ls) ≠ [] := by
  cases ls <;> simp [cutEnded]

theorem joinLines_cutEnded_sublist (marker : List Char) (ls : List (List Char)) :
    (joinLines (cutEnded marker ls)).Sublist (joinLines ls) := by
  induction ls with
  | nil => exact List.Sublist.refl _
  | cons line ls ih =>
    cases ls with
    | nil => exact List.Sublist.refl _
    | cons next rest =>
      obtain ⟨a, as, has⟩ := List.exists_cons_of_ne_nil (cutEnded_ne_nil marker next rest)
      rw [cutEnded, has, joinLines, joinLines, ← has]
      exact (beforeMarker_sublist marker line).append (ih.cons_cons _)

theorem joinLines_splitWhere (cs : List Char) :
    joinLines (splitWhere (· == '\n') cs) = cs := by
  induction cs with
  | nil => rfl
  | cons c cs ih =>
    obtain ⟨line, ls, hls⟩ := List.exists_cons_of_ne_nil (splitWhere_ne_nil (· == '\n') cs)
    rw [hls] at ih
    by_cases hc : c = '\n'
    · simp [splitWhere, hc, hls, joinLines, ih]
    · have hcons : joinLines ((c :: line) :: ls) = c :: joinLines (line :: ls) := by
        cases ls <;> rfl
      simp [splitWhere, hc, hls, hcons, ih]

/-- Lines without line feeds are read back from between the line feeds. -/
theorem splitWhere_joinLines {ls : List (List Char)} (hne : ls ≠ []) (h : ∀ l ∈ ls, '\n' ∉ l) :
    splitWhere (· == '\n') (joinLines ls) = ls := by
  induction ls with
  | nil => exact absurd rfl hne
  | cons line ls ih =>
    obtain ⟨hline, hls⟩ := List.forall_mem_cons.1 h
    cases ls with
    | nil => exact splitWhere_newline_of_notMem hline
    | cons next rest =>
      rw [joinLines, splitWhere_append_cons (by decide), splitWhere_newline_of_notMem hline,
        ih (List.cons_ne_nil next rest) hls, List.singleton_append]

theorem dropLineComments_sublist (marker cs : List Char) :
    (dropLineComments marker cs).Sublist cs := by
  have h := joinLines_cutEnded_sublist marker (splitWhere (· == '\n') cs)
  rwa [joinLines_splitWhere] at h

theorem stripComments_sublist (cs : List Char) : (stripComments cs).Sublist (unifyNewlines cs) := by
  have hsharp := dropLineComments_sublist ['#']
    (dropLineComments ['-', '-', ' '] (dropBlocks false (unifyNewlines cs)))
  have hdash := dropLineComments_sublist ['-', '-', ' '] (dropBlocks false (unifyNewlines cs))
  exact (hsharp.trans hdash).trans (dropBlocks_sublist _ _)

theorem mem_stripComments {c : Char} {cs : List Char} (h : c ∈ stripComments cs) :
    c ∈ cs ∨ c = '\n' :=
  mem_unifyNewlines ((stripComments_sublist cs).subset h)

/-! ## Texts without `;` -/

theorem meetsEnd_of_notMem {o : Open} {cs : List Char} (h : ';' ∉ cs) : o.meetsEnd cs = false := by
  induction cs generalizing o with
  | nil => rfl
  | cons c cs ih =>
    rw [List.mem_cons, not_or] at h
    have hc : (c == ';') = false := by simpa using Ne.symm h.1
    rw [Open.meetsEnd, ih h.2, hc, Bool.and_false, Bool.or_false]

/-- A text without `;` is one statement, its comments removed, or none. -/
theorem statements_of_notMem {cs : List Char} (h : ';' ∉ cs) :
    statements cs = if holdsText (stripComments cs) then [stripComments cs] else [] := by
  have hstrip : ';' ∉ stripComments cs := by
    intro hmem
    rcases mem_stripComments hmem with hmem | hmem
    · exact h hmem
    · exact absurd hmem (by decide)
  rw [statements, segmentsFrom_uncut (meetsEnd_of_notMem hstrip), List.filter_cons, List.filter_nil]

end GoScaffold.Sql
