import GoScaffold.Proofs.Sql.Stripping

set_option autoImplicit false

/-! # Texts that end with a statement

Where the scan of a text ends right after the `;` of a statement, it has forgotten the text: what
follows is cut into the statements that it holds alone (`statements_append`).

For that the removal of comments must not reach from one part into the other. It does not where it
leaves the whole as it is. Each of its passes leaves a text as it is just if nothing that it takes
out begins at any place of it, and what begins in a part begins in the whole (`fixed_parts`); so it
leaves the parts as they are as well (`stripComments_parts`). -/

namespace GoScaffold.Sql

open Text

/-! ## Passes that leave a text as it is -/

/-- If a pass leaves a text as it is just where nothing that it takes out begins, and what begins
in a text still begins there when the text goes on, then it leaves the parts of a text as they are
wherever it leaves the whole so. -/
theorem fixed_parts {pass : List Char → List Char} (begins : List Char → Prop)
    (empty : pass [] = [])
    (step : ∀ c cs, pass (c :: cs) = c :: cs ↔ ¬begins (c :: cs) ∧ pass cs = cs)
    (goes_on : ∀ a b, begins a → begins (a ++ b))
    {a b : List Char} (h : pass (a ++ b) = a ++ b) : pass a = a ∧ pass b = b := by
  induction a with
  | nil => exact ⟨empty, h⟩
  | cons c cs ih =>
    obtain ⟨hbegins, hrest⟩ := (step c (cs ++ b)).1 h
    obtain ⟨hcs, hb⟩ := ih hrest
    exact ⟨(step c cs).2 ⟨fun hc => hbegins (goes_on (c :: cs) b hc), hcs⟩, hb⟩

/-! ### Carriage returns -/

theorem notMem_unifyNewlines (cs : List Char) : '\r' ∉ unifyNewlines cs := by
  fun_induction unifyNewlines cs with
  | case1 => simp
  | case2 cs ih => simp [ih]
  | case3 cs hpair ih => simp [ih]
  | case4 c cs hpair hreturn ih =>
    rw [List.mem_cons, not_or]
    exact ⟨fun h => hreturn h.symm, ih⟩

theorem unifyNewlines_eq_self {cs : List Char} (h : '\r' ∉ cs) : unifyNewlines cs = cs := by
  fun_induction unifyNewlines cs with
  | case1 => rfl
  | case2 cs ih => simp at h
  | case3 cs hpair ih => simp at h
  | case4 c cs hpair hreturn ih =>
    rw [List.mem_cons, not_or] at h
    rw [ih h.2]

theorem unifyNewlines_parts {a b : List Char} (h : unifyNewlines (a ++ b) = a ++ b) :
    unifyNewlines a = a ∧ unifyNewlines b = b := by
  have hnot := notMem_unifyNewlines (a ++ b)
  rw [h, List.mem_append, not_or] at hnot
  exact ⟨unifyNewlines_eq_self hnot.1, unifyNewlines_eq_self hnot.2⟩

theorem length_unifyNewlines_le (cs : List Char) : (unifyNewlines cs).length ≤ cs.length := by
  fun_induction unifyNewlines cs with
  | case1 => exact Nat.le_refl _
  | case2 cs ih =>
    simp only [List.length_cons]
    omega
  | case3 cs hpair ih => exact Nat.succ_le_succ ih
  | case4 c cs hpair hreturn ih => exact Nat.succ_le_succ ih

/-! ### Block comments -/

/-- Whether the text begins with a block comment. -/
def beginsBlock : List Char → Bool
  | '/' :: '*' :: cs => (afterClose cs).isSome
  | _ => false

theorem afterClose_append {cs : List Char} (rest : List Char) (h : (afterClose cs).isSome) :
    (afterClose (cs ++ rest)).isSome := by
  fun_induction afterClose cs with
  | case1 => simp at h
  | case2 cs => rfl
  | case3 c cs hclose ih =>
    rw [List.cons_append, afterClose]
    · exact ih h
    · intro ds hc hds
      cases cs with
      | nil => simp [afterClose] at h
      | cons d es =>
        rw [List.cons_append, List.cons.injEq] at hds
        exact hclose es hc (by rw [hds.1])

theorem beginsBlock_append {cs : List Char} (rest : List Char) (h : beginsBlock cs = true) :
    beginsBlock (cs ++ rest) = true := by
  unfold beginsBlock at h
  split at h
  · exact afterClose_append rest h
  · exact absurd h Bool.false_ne_true

theorem dropBlocks_cons_eq_self (c : Char) (cs : List Char) :
    dropBlocks false (c :: cs) = c :: cs
      ↔ ¬beginsBlock (c :: cs) = true ∧ dropBlocks false cs = cs := by
  by_cases hblock : ∃ ds, c :: cs = '/' :: '*' :: ds
  · obtain ⟨ds, hds⟩ := hblock
    obtain ⟨rfl, rfl⟩ := List.cons.inj hds
    have hstar : dropBlocks false ('*' :: ds) = '*' :: dropBlocks false ds := by
      rw [dropBlocks]
      intro es h
      exact absurd h (by decide)
    rw [dropBlocks, hstar]
    by_cases hclosed : (afterClose ds).isSome = true
    · have hlength := (dropBlocks_sublist true ds).length_le
      rw [if_pos hclosed]
      constructor
      · intro h
        have := congrArg List.length h
        simp only [List.length_cons] at this
        omega
      · intro h
        exact absurd hclosed h.1
    · simp [hclosed, beginsBlock]
  · have hdrop : dropBlocks false (c :: cs) = c :: dropBlocks false cs := by
      rw [dropBlocks]
      intro ds hc hcs
      exact hblock ⟨ds, by rw [hc, hcs]⟩
    have hbegins : beginsBlock (c :: cs) = false := by
      unfold beginsBlock
      split
      · next ds hds => exact absurd ⟨ds, hds⟩ hblock
      · rfl
    simp [hdrop, hbegins]

theorem dropBlocks_parts {a b : List Char} (h : dropBlocks false (a ++ b) = a ++ b) :
    dropBlocks false a = a ∧ dropBlocks false b = b :=
  fixed_parts (fun cs => beginsBlock cs = true) rfl dropBlocks_cons_eq_self
    (fun _ b h => beginsBlock_append b h) h

/-! ### Line comments -/

/-- Whether the text begins with a comment that `marker` opens on an ended line. -/
def beginsLineComment (marker cs : List Char) : Bool :=
  match splitWhere (· == '\n') cs with
  | line :: _ :: _ => marker.isPrefixOf line
  | _ => false

/-- A piece that has an end keeps it when the text goes on. -/
theorem splitWhere_append_ended {p : Char → Bool} {cs piece next : List Char}
    {pieces : List (List Char)} (rest : List Char)
    (h : splitWhere p cs = piece :: next :: pieces) :
    ∃ second more, splitWhere p (cs ++ rest) = piece :: second :: more := by
  induction cs generalizing piece next pieces with
  | nil => simp [splitWhere] at h
  | cons c cs ih =>
    rw [splitWhere] at h
    rw [List.cons_append, splitWhere]
    by_cases hc : p c = true
    · rw [if_pos hc] at h ⊢
      obtain ⟨rfl, -⟩ := List.cons.inj h
      obtain ⟨second, more, hmore⟩ :=
        List.exists_cons_of_ne_nil (splitWhere_ne_nil p (cs ++ rest))
      exact ⟨second, more, by rw [hmore]⟩
    · rw [if_neg hc] at h ⊢
      obtain ⟨line, lines, hlines⟩ := List.exists_cons_of_ne_nil (splitWhere_ne_nil p cs)
      rw [hlines] at h
      obtain ⟨rfl, rfl⟩ := List.cons.inj h
      obtain ⟨second, more, hmore⟩ := ih hlines
      exact ⟨second, more, by rw [hmore]⟩

theorem beginsLineComment_append {marker cs : List Char} (rest : List Char)
    (h : beginsLineComment marker cs = true) : beginsLineComment marker (cs ++ rest) = true := by
  unfold beginsLineComment at h
  split at h
  · next line next pieces hsplit =>
    obtain ⟨second, more, hmore⟩ := splitWhere_append_ended rest hsplit
    unfold beginsLineComment
    rw [hmore]
    exact h
  · exact absurd h Bool.false_ne_true

theorem dropLineComments_cons_eq_self {marker : List Char} (hmarker : marker ≠ []) (c : Char)
    (cs : List Char) :
    dropLineComments marker (c :: cs) = c :: cs
      ↔ ¬beginsLineComment marker (c :: cs) = true ∧ dropLineComments marker cs = cs := by
  obtain ⟨m, ms, rfl⟩ := List.exists_cons_of_ne_nil hmarker
  obtain ⟨line, lines, hlines⟩ := List.exists_cons_of_ne_nil (splitWhere_ne_nil (· == '\n') cs)
  by_cases hc : c = '\n'
  · -- An empty line ends here, and no marker stands on it.
    have hsplit : splitWhere (· == '\n') (c :: cs) = [] :: line :: lines := by
      simp [splitWhere, hc, hlines]
    obtain ⟨x, xs, hx⟩ := List.exists_cons_of_ne_nil (cutEnded_ne_nil (m :: ms) line lines)
    have hdrop : dropLineComments (m :: ms) (c :: cs) = c :: dropLineComments (m :: ms) cs := by
      rw [dropLineComments, dropLineComments, hsplit, hlines, cutEnded, hx, beforeMarker, joinLines,
        List.nil_append, hc]
    have hbegins : beginsLineComment (m :: ms) (c :: cs) = false := by
      unfold beginsLineComment
      rw [hsplit]
      rfl
    simp [hdrop, hbegins]
  · have hsplit : splitWhere (· == '\n') (c :: cs) = (c :: line) :: lines := by
      simp [splitWhere, hc, hlines]
    cases lines with
    | nil =>
      have hdrop : dropLineComments (m :: ms) (c :: cs) = c :: dropLineComments (m :: ms) cs := by
        rw [dropLineComments, dropLineComments, hsplit, hlines]
        rfl
      have hbegins : beginsLineComment (m :: ms) (c :: cs) = false := by
        unfold beginsLineComment
        rw [hsplit]
      simp [hdrop, hbegins]
    | cons next rest =>
      have hbegins : beginsLineComment (m :: ms) (c :: cs) = (m :: ms).isPrefixOf (c :: line) := by
        unfold beginsLineComment
        rw [hsplit]
      obtain ⟨x, xs, hx⟩ := List.exists_cons_of_ne_nil (cutEnded_ne_nil (m :: ms) next rest)
      rw [hbegins]
      by_cases hopen : (m :: ms).isPrefixOf (c :: line) = true
      · -- The line is cut at its very front.
        have hdrop : dropLineComments (m :: ms) (c :: cs)
            = '\n' :: joinLines (cutEnded (m :: ms) (next :: rest)) := by
          rw [dropLineComments, hsplit, cutEnded, hx, beforeMarker, if_pos hopen, joinLines,
            List.nil_append]
        constructor
        · intro h
          rw [hdrop, List.cons.injEq] at h
          exact absurd h.1.symm hc
        · intro h
          exact absurd hopen h.1
      · have hdrop : dropLineComments (m :: ms) (c :: cs) = c :: dropLineComments (m :: ms) cs := by
          rw [dropLineComments, dropLineComments, hsplit, hlines, cutEnded, cutEnded, hx,
            beforeMarker, if_neg hopen, joinLines, joinLines, List.cons_append]
        simp [hdrop, hopen]

theorem dropLineComments_parts {marker a b : List Char} (hmarker : marker ≠ [])
    (h : dropLineComments marker (a ++ b) = a ++ b) :
    dropLineComments marker a = a ∧ dropLineComments marker b = b :=
  fixed_parts (fun cs => beginsLineComment marker cs = true) rfl
    (dropLineComments_cons_eq_self hmarker) (fun _ b h => beginsLineComment_append b h) h

/-! ### All passes -/

/-- A text that loses nothing is left as it is by each pass: none makes it longer, and so none may
make it shorter. -/
theorem stripComments_eq_self {cs : List Char} :
    stripComments cs = cs ↔
      unifyNewlines cs = cs ∧ dropBlocks false cs = cs
        ∧ dropLineComments ['-', '-', ' '] cs = cs ∧ dropLineComments ['#'] cs = cs := by
  constructor
  · intro h
    have hblocks := dropBlocks_sublist false (unifyNewlines cs)
    have hdash := dropLineComments_sublist ['-', '-', ' '] (dropBlocks false (unifyNewlines cs))
    have hsharp := dropLineComments_sublist ['#']
      (dropLineComments ['-', '-', ' '] (dropBlocks false (unifyNewlines cs)))
    change (stripComments cs).Sublist _ at hsharp
    rw [h] at hsharp
    have hlength := length_unifyNewlines_le cs
    have hunified : unifyNewlines cs = cs :=
      ((hsharp.trans (hdash.trans hblocks)).eq_of_length_le hlength).symm
    have hdropped : dropBlocks false cs = cs := by
      rw [hunified] at hblocks hsharp hdash
      exact hblocks.eq_of_length_le (hsharp.trans hdash).length_le
    have hdashed : dropLineComments ['-', '-', ' '] cs = cs := by
      rw [hunified, hdropped] at hsharp hdash
      exact hdash.eq_of_length_le hsharp.length_le
    refine ⟨hunified, hdropped, hdashed, ?_⟩
    rw [stripComments, hunified, hdropped, hdashed] at h
    exact h
  · rintro ⟨hunified, hdropped, hdashed, hsharped⟩
    rw [stripComments, hunified, hdropped, hdashed, hsharped]

/-- Where no comment is removed from a text, none is removed from its parts. -/
theorem stripComments_parts {a b : List Char} (h : stripComments (a ++ b) = a ++ b) :
    stripComments a = a ∧ stripComments b = b := by
  obtain ⟨hunified, hdropped, hdashed, hsharped⟩ := stripComments_eq_self.1 h
  have hunified := unifyNewlines_parts hunified
  have hdropped := dropBlocks_parts hdropped
  have hdashed := dropLineComments_parts (List.cons_ne_nil _ _) hdashed
  have hsharped := dropLineComments_parts (List.cons_ne_nil _ _) hsharped
  exact ⟨stripComments_eq_self.2 ⟨hunified.1, hdropped.1, hdashed.1, hsharped.1⟩,
    stripComments_eq_self.2 ⟨hunified.2, hdropped.2, hdashed.2, hsharped.2⟩⟩

/-! ## The scan past an ended text -/

/-- The text ends with a `;` outside quotes and comments. -/
def IsEnded (cs : List Char) : Prop :=
  ∃ body, cs = body ++ [';'] ∧ Open.nothing.after body = .nothing

/-- Past a text that the scan leaves outside quotes and comments and the `;` after it, what follows
is cut as if it stood alone. -/
theorem segmentsFrom_append {o : Open} {cs : List Char} (closed : o.after cs = .nothing) :
    ∃ segment segments, ∀ rest, segmentsFrom o (cs ++ ';' :: rest)
      = segment :: segments ++ segmentsFrom .nothing rest := by
  induction cs generalizing o with
  | nil =>
    obtain rfl : o = .nothing := closed
    exact ⟨[';'], [], fun rest => by simp [segmentsFrom]⟩
  | cons c cs ih =>
    obtain ⟨segment, segments, hsegments⟩ := ih (o := o.next c) closed
    by_cases hend : o = .nothing ∧ c = ';'
    · have hnext : o.next c = .nothing := by
        rw [hend.1, hend.2]
        rfl
      rw [hnext] at hsegments
      refine ⟨[c], segment :: segments, fun rest => ?_⟩
      rw [List.cons_append, segmentsFrom, if_pos hend, hsegments rest]
      rfl
    · refine ⟨c :: segment, segments, fun rest => ?_⟩
      rw [List.cons_append, segmentsFrom, if_neg hend, hsegments rest]
      rfl

/-- The statements of an ended text and then those of what follows it, where no comment is removed
from the whole. -/
theorem statements_append {a b : List Char} (plain : stripComments (a ++ b) = a ++ b)
    (ended : IsEnded a) : statements (a ++ b) = statements a ++ statements b := by
  obtain ⟨hplain, hrest⟩ := stripComments_parts plain
  obtain ⟨body, rfl, closed⟩ := ended
  obtain ⟨segment, segments, hsegments⟩ := segmentsFrom_append closed
  have hwhole : segmentsFrom .nothing (body ++ [';'] ++ b)
      = segment :: segments ++ segmentsFrom .nothing b := by
    rw [List.append_assoc]
    exact hsegments b
  have hempty : holdsText [] = false := by decide
  rw [statements, statements, statements, plain, hplain, hrest, hwhole, hsegments [],
    List.filter_append, List.filter_append]
  simp [segmentsFrom, hempty]

end GoScaffold.Sql
