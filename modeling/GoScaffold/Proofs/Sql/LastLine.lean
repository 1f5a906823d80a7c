import GoScaffold.Proofs.Sql.Ended
import GoScaffold.Proofs.Sql.Partition

set_option autoImplicit false

/-! # Comments that are left

Removing comments leaves a line comment on the last line, the one that no line feed ends, and no other:
no line feed follows a marker that is left, whatever was joined where a block comment stood
(`markers_onLastLine`). For each pass cuts every ended line before its first marker, and the pass after
it only shortens the ended lines again. So a scan that is once inside a line comment stays in it up to
the end of the text. -/

namespace GoScaffold.Sql

open Text

/-- Wherever the marker stands in the text, no line feed follows. -/
def OnLastLine (marker cs : List Char) : Prop :=
  ∀ before after, cs = before ++ (marker ++ after) → '\n' ∉ after

variable {marker line cs : List Char}

/-! ## Lines that are cut -/

theorem beforeMarker_front (marker line : List Char) : beforeMarker marker line <+: line := by
  induction line with
  | nil => exact List.prefix_refl []
  | cons c cs ih =>
    rw [beforeMarker]
    split
    · exact List.nil_prefix
    · exact List.cons_prefix_cons.2 ⟨rfl, ih⟩

/-- What stands before the first marker holds none. -/
theorem not_infix_beforeMarker (hmarker : marker ≠ []) (line : List Char) :
    ¬marker <:+: beforeMarker marker line := by
  induction line with
  | nil => simpa [beforeMarker] using hmarker
  | cons c cs ih =>
    rw [beforeMarker]
    split
    · simpa using hmarker
    · next hnot =>
      rw [List.infix_cons_iff, not_or]
      refine ⟨fun hfront => hnot ?_, ih⟩
      have hkept : c :: beforeMarker marker cs <+: c :: cs :=
        List.cons_prefix_cons.2 ⟨rfl, beforeMarker_front marker cs⟩
      exact List.isPrefixOf_iff_prefix.2 (hfront.trans hkept)

/-- Every line but the last is cut. -/
theorem dropLast_cutEnded (marker : List Char) (ls : List (List Char)) :
    (cutEnded marker ls).dropLast = ls.dropLast.map (beforeMarker marker) := by
  induction ls with
  | nil => rfl
  | cons line ls ih =>
    cases ls with
    | nil => rfl
    | cons next rest =>
      rw [cutEnded, List.dropLast_cons_of_ne_nil (cutEnded_ne_nil marker next rest), ih,
        List.dropLast_cons_of_ne_nil (List.cons_ne_nil next rest), List.map_cons]

theorem exists_prefix_of_mem_cutEnded {ls : List (List Char)} (h : line ∈ cutEnded marker ls) :
    ∃ whole ∈ ls, line <+: whole := by
  induction ls with
  | nil => cases h
  | cons first ls ih =>
    cases ls with
    | nil => exact ⟨line, h, List.prefix_refl line⟩
    | cons next rest =>
      rcases List.mem_cons.1 h with rfl | h
      · exact ⟨first, List.mem_cons_self, beforeMarker_front marker first⟩
      · obtain ⟨whole, hwhole, hfront⟩ := ih h
        exact ⟨whole, List.mem_cons_of_mem _ hwhole, hfront⟩

/-- A pass over line comments keeps the lines and cuts them. -/
theorem splitWhere_dropLineComments (marker cs : List Char) :
    splitWhere (· == '\n') (dropLineComments marker cs)
      = cutEnded marker (splitWhere (· == '\n') cs) := by
  refine splitWhere_joinLines ?_ fun line hline hfeed => ?_
  · obtain ⟨first, rest, hlines⟩ := List.exists_cons_of_ne_nil (splitWhere_ne_nil (· == '\n') cs)
    rw [hlines]
    exact cutEnded_ne_nil marker first rest
  · obtain ⟨whole, hwhole, hfront⟩ := exists_prefix_of_mem_cutEnded hline
    exact absurd (not_of_mem_splitWhere hwhole (hfront.subset hfeed)) (by decide)

/-- A marker that no ended line holds stands on the last line. -/
theorem onLastLine_of_forall (hmarker : '\n' ∉ marker)
    (h : ∀ line ∈ (splitWhere (· == '\n') cs).dropLast, ¬marker <:+: line) : OnLastLine marker cs := by
  rintro before after rfl hfeed
  obtain ⟨upto, rest, rfl, hupto⟩ := List.eq_append_cons_of_mem hfeed
  -- The line of the marker goes up to the first line feed behind it.
  have hplain : ∀ c ∈ marker ++ upto, (c == '\n') = false := by
    rintro c hc
    rw [beq_eq_false_iff_ne]
    rintro rfl
    exact (List.mem_append.1 hc).elim hmarker hupto
  have hlines : splitWhere (· == '\n') (before ++ (marker ++ (upto ++ '\n' :: rest)))
      = splitWhere (· == '\n') (before ++ (marker ++ upto)) ++ splitWhere (· == '\n') rest := by
    have hjoined := splitWhere_append_cons (p := (· == '\n')) (beq_self_eq_true '\n')
      (before ++ (marker ++ upto)) rest
    rw [← hjoined]
    simp
  obtain ⟨start, hstart⟩ : ∃ start, start ++ (marker ++ upto)
      ∈ splitWhere (· == '\n') (before ++ (marker ++ upto)) := by
    rw [splitWhere_append hplain before]
    exact ⟨_, List.mem_append_right _ (List.mem_singleton_self _)⟩
  refine h (start ++ (marker ++ upto)) ?_ ⟨start, upto, List.append_assoc ..⟩
  rw [hlines, List.dropLast_append_of_ne_nil (splitWhere_ne_nil _ rest)]
  exact List.mem_append_left _ hstart

/-! ## Scans inside line comments -/

theorem next_lineComment {c : Char} (h : c ≠ '\n') : Open.lineComment.next c = .lineComment := if_neg h

theorem after_lineComment (h : '\n' ∉ cs) : Open.lineComment.after cs = .lineComment := by
  induction cs with
  | nil => rfl
  | cons c cs ih =>
    rw [List.mem_cons, not_or] at h
    rw [Open.after, List.foldl_cons, next_lineComment (Ne.symm h.1)]
    exact ih h.2

/-- A line comment that a scan is inside of was opened by a `#`. -/
theorem hash_mem_of_after {o : Open} (ho : o ≠ .lineComment) (h : o.after cs = .lineComment) :
    '#' ∈ cs := by
  induction cs generalizing o with
  | nil => exact absurd h ho
  | cons c cs ih =>
    by_cases hc : c = '#'
    · exact hc ▸ List.mem_cons_self
    · refine List.mem_cons_of_mem _ (ih (o := o.next c) ?_ h)
      cases o with
      | nothing =>
        rw [Open.next, if_neg hc]
        split <;> simp
      | lineComment => exact absurd rfl ho
      | quote q =>
        rw [Open.next]
        split_ifs <;> simp
      | escape q => simp [Open.next]

theorem segmentsFrom_lineComment (h : '\n' ∉ cs) : segmentsFrom .lineComment cs = [cs] := by
  refine segmentsFrom_uncut ?_
  induction cs with
  | nil => rfl
  | cons c cs ih =>
    rw [List.mem_cons, not_or] at h
    rw [Open.meetsEnd, next_lineComment (Ne.symm h.1), ih h.2]
    rfl

/-! ## Texts without comments -/

theorem notMem_stripComments (cs : List Char) : '\r' ∉ stripComments cs :=
  fun h => notMem_unifyNewlines cs ((stripComments_sublist cs).subset h)

theorem dropLast_splitWhere_stripComments (cs : List Char) :
    (splitWhere (· == '\n') (stripComments cs)).dropLast
      = ((splitWhere (· == '\n') (dropBlocks false (unifyNewlines cs))).dropLast.map
          (beforeMarker ['-', '-', ' '])).map (beforeMarker ['#']) := by
  rw [stripComments, splitWhere_dropLineComments, dropLast_cutEnded, splitWhere_dropLineComments,
    dropLast_cutEnded]

theorem hash_onLastLine (cs : List Char) : OnLastLine ['#'] (stripComments cs) := by
  refine onLastLine_of_forall (by decide) fun line hline => ?_
  rw [dropLast_splitWhere_stripComments] at hline
  obtain ⟨whole, -, rfl⟩ := List.mem_map.1 hline
  exact not_infix_beforeMarker (List.cons_ne_nil _ _) whole

theorem dashes_onLastLine (cs : List Char) : OnLastLine ['-', '-', ' '] (stripComments cs) := by
  refine onLastLine_of_forall (by decide) fun line hline hmarker => ?_
  rw [dropLast_splitWhere_stripComments] at hline
  obtain ⟨whole, hwhole, rfl⟩ := List.mem_map.1 hline
  obtain ⟨first, -, rfl⟩ := List.mem_map.1 hwhole
  -- The second pass only takes an end off the line.
  exact not_infix_beforeMarker (List.cons_ne_nil _ _) first
    (hmarker.trans (beforeMarker_front ['#'] _).isInfix)

/-- Whatever the text, without its comments it holds no carriage return, and no line feed follows a `#`
or a `-- ` anywhere. Where a scan of it is inside a line comment, it is so after every longer front, and
all that follows is cut nowhere. -/
theorem markers_onLastLine (cs : List Char) :
    '\r' ∉ stripComments cs ∧ OnLastLine ['#'] (stripComments cs)
      ∧ OnLastLine ['-', '-', ' '] (stripComments cs)
      ∧ ∀ front rest, stripComments cs = front ++ rest →
        Open.nothing.after front = .lineComment →
          (∀ more, more <+: rest → Open.nothing.after (front ++ more) = .lineComment)
            ∧ segmentsFrom .lineComment rest = [rest] := by
  refine ⟨notMem_stripComments cs, hash_onLastLine cs, dashes_onLastLine cs,
    fun front rest hcs hopen => ?_⟩
  have hhash : '#' ∈ front := hash_mem_of_after (o := .nothing) (by simp) hopen
  obtain ⟨before, after, rfl, -⟩ := List.eq_append_cons_of_mem hhash
  have hfeed : '\n' ∉ rest := fun hmem =>
    hash_onLastLine cs before (after ++ rest) (by simp [hcs]) (List.mem_append_right _ hmem)
  refine ⟨fun more hmore => ?_, segmentsFrom_lineComment hfeed⟩
  rw [Open.after_append, hopen, after_lineComment fun hmem => hfeed (hmore.subset hmem)]

/-- Markers that stand where block comments were removed are removed in turn, but for the last line. -/
example : stripComments "a -/**/- b\r\nc /* */# d\re # f -- g".toList
    = "a \nc \ne # f -- g".toList := by decide

end GoScaffold.Sql
