import GoScaffold.Proofs.Sql.Splitting

set_option autoImplicit false

/-! # Nothing is lost between statements

Whatever the text, its statements are segments of it that lie side by side: the segments make up the
text without its comments, each but the last ends where the scan of the whole text stands outside
quotes and comments at a `;`, and no other such `;` stands in any of them (`IsPartition`). A segment
is left out only if it holds white space and at most one `;` (`statements_partition`).

The proof goes from one such `;` to the next. There the scan has nothing open, so the rest of the text
is cut as if it stood alone (`IsPartition.cons`). -/

namespace GoScaffold.Sql

open Text

/-! ## Where a scan meets an end -/

namespace Open

theorem after_append (o : Open) (as bs : List Char) : o.after (as ++ bs) = (o.after as).after bs :=
  List.foldl_append

/-- After an end the scan stands as it does before a text. -/
theorem after_ended {front : List Char} (closed : Open.nothing.after front = .nothing)
    (cs : List Char) : Open.nothing.after (front ++ ';' :: cs) = Open.nothing.after cs := by
  rw [after_append, closed]
  rfl

theorem meetsEnd_append (o : Open) (as bs : List Char) :
    o.meetsEnd (as ++ bs) = (o.meetsEnd as || (o.after as).meetsEnd bs) := by
  induction as generalizing o with
  | nil => rfl
  | cons a as ih =>
    rw [List.cons_append, meetsEnd, meetsEnd, ih, Bool.or_assoc]
    rfl

/-- Where no end is met, the scan has something open at every `;`. -/
theorem after_ne_nothing {o : Open} {front rest : List Char}
    (uncut : o.meetsEnd (front ++ ';' :: rest) = false) : o.after front ≠ .nothing := by
  intro closed
  rw [meetsEnd_append, closed, Bool.or_eq_false_iff] at uncut
  exact absurd uncut.2 (by simp [meetsEnd])

/-- A text in which an end is met has a first one. -/
theorem exists_end {o : Open} {cs : List Char} (h : o.meetsEnd cs = true) :
    ∃ front rest, cs = front ++ ';' :: rest ∧ o.meetsEnd front = false
      ∧ o.after front = .nothing := by
  induction cs generalizing o with
  | nil => exact absurd h (by simp [meetsEnd])
  | cons c cs ih =>
    by_cases hend : (o == .nothing && c == ';') = true
    · obtain ⟨rfl, rfl⟩ : o = .nothing ∧ c = ';' := by simpa using hend
      exact ⟨[], cs, rfl, rfl, rfl⟩
    · rw [meetsEnd, Bool.eq_false_iff.2 hend, Bool.false_or] at h
      obtain ⟨front, rest, rfl, uncut, closed⟩ := ih h
      refine ⟨c :: front, rest, rfl, ?_, closed⟩
      rw [meetsEnd, Bool.eq_false_iff.2 hend, Bool.false_or, uncut]

end Open

/-! ## Partitions -/

/-- The segments make up the text, and they are cut apart right after every `;` at which a scan of the
text stands outside quotes and comments. -/
structure IsPartition (text : List Char) (segments : List (List Char)) : Prop where
  whole : segments.flatten = text
  /-- Every segment but the last ends with a `;`. -/
  ended : ∀ before segment after, segments = before ++ segment :: after → after ≠ [] →
    ∃ front, segment = front ++ [';']
  /-- A `;` stands outside quotes and comments if and only if it is the end of a segment that is not
  the last. -/
  cut : ∀ before segment after, segments = before ++ segment :: after →
    ∀ front rest, segment = front ++ ';' :: rest →
      (Open.nothing.after (before.flatten ++ front) = .nothing ↔ rest = [] ∧ after ≠ [])

namespace IsPartition

/-- A text in which no end is met is one segment. -/
theorem singleton {text : List Char} (uncut : Open.nothing.meetsEnd text = false) :
    IsPartition text [text] := by
  have hone {before after : List (List Char)} {segment : List Char}
      (h : [text] = before ++ segment :: after) : before = [] ∧ segment = text ∧ after = [] := by
    cases before with
    | nil => simpa [eq_comm] using h
    | cons b before => simp at h
  refine ⟨by simp, ?_, ?_⟩
  · intro before segment after h hafter
    exact absurd (hone h).2.2 hafter
  · intro before segment after h front rest hsegment
    obtain ⟨rfl, rfl, rfl⟩ := hone h
    rw [hsegment] at uncut
    constructor
    · intro closed
      exact absurd closed (Open.after_ne_nothing uncut)
    · intro hlast
      exact absurd rfl hlast.2

/-- What a first end cuts off, before a partition of the rest. -/
theorem cons {front cs : List Char} {segments : List (List Char)}
    (uncut : Open.nothing.meetsEnd front = false) (closed : Open.nothing.after front = .nothing)
    (hne : segments ≠ []) (h : IsPartition cs segments) :
    IsPartition (front ++ ';' :: cs) ((front ++ [';']) :: segments) := by
  refine ⟨by simp [h.whole], ?_, ?_⟩
  · intro before segment after hsegments hafter
    cases before with
    | nil => exact ⟨front, (List.cons.inj hsegments).1.symm⟩
    | cons b before => exact h.ended before segment after (List.cons.inj hsegments).2 hafter
  · intro before segment after hsegments start rest hsegment
    cases before with
    | nil =>
      obtain ⟨hfirst, rfl⟩ := List.cons.inj hsegments
      rw [← hfirst] at hsegment
      cases rest using List.reverseRecOn with
      | nil =>
        obtain rfl : front = start := (List.append_inj' hsegment rfl).1
        exact ⟨fun _ => ⟨rfl, hne⟩, fun _ => closed⟩
      | append_singleton rest c =>
        -- Another `;` of the segment stands before the first end.
        have hfront : front = start ++ ';' :: rest := by
          rw [← List.cons_append, ← List.append_assoc] at hsegment
          exact (List.append_inj' hsegment rfl).1
        rw [hfront] at uncut
        constructor
        · intro hclosed
          exact absurd hclosed (Open.after_ne_nothing uncut)
        · intro hlast
          exact absurd hlast.1 (by simp)
    | cons b before =>
      obtain ⟨rfl, hrest⟩ := List.cons.inj hsegments
      have hscan : Open.nothing.after (((front ++ [';']) :: before).flatten ++ start)
          = Open.nothing.after (before.flatten ++ start) := by
        rw [List.flatten_cons, List.append_assoc, List.append_assoc]
        exact Open.after_ended closed _
      rw [hscan]
      exact h.cut before segment after hrest start rest hsegment

end IsPartition

/-! ## The segments of a text -/

/-- Cutting gives a partition, and but for a `;` at its end no segment has an end in it. -/
theorem segmentsFrom_partition (text : List Char) :
    IsPartition text (segmentsFrom .nothing text) ∧ segmentsFrom .nothing text ≠ []
      ∧ ∀ segment ∈ segmentsFrom .nothing text, ∃ front, Open.nothing.meetsEnd front = false
        ∧ (segment = front ∨ segment = front ++ [';']) := by
  -- By the length of the text, as each end takes a whole segment off it.
  induction hlen : text.length using Nat.strongRecOn generalizing text with
  | ind n ih =>
    cases hmeets : Open.nothing.meetsEnd text with
    | false =>
      rw [segmentsFrom_uncut hmeets]
      refine ⟨.singleton hmeets, List.cons_ne_nil _ _, ?_⟩
      intro segment hsegment
      exact ⟨text, hmeets, Or.inl (List.mem_singleton.1 hsegment)⟩
    | true =>
      obtain ⟨front, rest, rfl, uncut, closed⟩ := Open.exists_end hmeets
      have hshorter : rest.length < n := by
        rw [← hlen, List.length_append, List.length_cons]
        omega
      obtain ⟨hrest, hne, hsegments⟩ := ih rest.length hshorter rest rfl
      rw [segmentsFrom_closed rest uncut closed]
      refine ⟨hrest.cons uncut closed hne, List.cons_ne_nil _ _, ?_⟩
      intro segment hsegment
      rcases List.mem_cons.1 hsegment with rfl | hsegment
      · exact ⟨front, uncut, Or.inr rfl⟩
      · exact hsegments segment hsegment

/-! ## Segments that are left out -/

/-- Whether the segment holds anything besides white space and `;`, wherever it stands. -/
def holdsMore (segment : List Char) : Bool := segment.any fun c => !isBlank c && c != ';'

/-- A text of white space, with a `;` at its end or without, holds no text. -/
theorem holdsText_of_blank {front : List Char} (h : ∀ c ∈ front, isBlank c = true) :
    holdsText front = false ∧ holdsText (front ++ [';']) = false := by
  have htrim : trimBlank front = [] := by
    rw [trimBlank, trimWhere, List.dropWhile_eq_nil_iff.2 h]
    rfl
  have hend : trimBlank (front ++ [';']) = [';'] := by
    rw [trimBlank, trimWhere, List.dropWhile_append_of_pos h]
    decide
  constructor
  · rw [holdsText, htrim]
    decide
  · rw [holdsText, hend]
    decide

/-- Where no end is met, a text of white space and `;` is white space. -/
theorem isBlank_of_uncut {front : List Char} (uncut : Open.nothing.meetsEnd front = false)
    (h : holdsMore front = false) : ∀ c ∈ front, isBlank c = true := by
  by_contra hheld
  have hheld : ∃ c ∈ front, isBlank c = false := by simpa using hheld
  obtain ⟨blanks, c, rest, rfl, -, hc, hend⟩ := exists_first hheld uncut
  simp [holdsMore, hc, hend] at h

theorem holdsMore_ended (front : List Char) : holdsMore (front ++ [';']) = holdsMore front := by
  simp [holdsMore]

/-- A segment is kept just if it holds anything besides white space and `;`. -/
theorem holdsText_eq_holdsMore {front segment : List Char}
    (uncut : Open.nothing.meetsEnd front = false)
    (hsegment : segment = front ∨ segment = front ++ [';']) :
    holdsText segment = holdsMore segment := by
  have hmore : holdsMore segment = holdsMore front := by
    rcases hsegment with rfl | rfl
    · rfl
    · exact holdsMore_ended front
  rw [hmore]
  cases h : holdsMore front with
  | false =>
    have hblank := holdsText_of_blank (isBlank_of_uncut uncut h)
    rcases hsegment with rfl | rfl
    · exact hblank.1
    · exact hblank.2
  | true =>
    have hheld : ∃ c ∈ front, isBlank c = false := by
      obtain ⟨c, hc, hkept⟩ := List.any_eq_true.1 h
      exact ⟨c, hc, by simpa using (Bool.and_eq_true_iff.1 hkept).1⟩
    obtain ⟨blanks, c, rest, rfl, hblanks, hc, hend⟩ := exists_first hheld uncut
    rcases hsegment with rfl | rfl
    · exact holdsText_of_first hblanks hc hend
    · rw [List.append_assoc, List.cons_append]
      exact holdsText_of_first hblanks hc hend

/-- A segment that holds nothing else is white space and at most one `;`. -/
theorem count_end_le {front segment : List Char} (uncut : Open.nothing.meetsEnd front = false)
    (hsegment : segment = front ∨ segment = front ++ [';']) (h : holdsMore segment = false) :
    segment.count ';' ≤ 1 := by
  have hfront : holdsMore front = false := by
    rcases hsegment with rfl | rfl
    · exact h
    · rwa [holdsMore_ended] at h
  have hnone : front.count ';' = 0 := by
    refine List.count_eq_zero.2 fun hmem => ?_
    exact absurd (isBlank_of_uncut uncut hfront ';' hmem) (by decide)
  rcases hsegment with rfl | rfl
  · omega
  · rw [List.count_append, hnone]
    decide

/-- Every text without its comments is made up of segments, cut after each `;` outside quotes and
comments. The statements are those segments that hold anything besides white space and `;`, in order
and unaltered, and each of the others is white space and at most one `;`. -/
theorem statements_partition (text : List Char) :
    ∃ segments, IsPartition (stripComments text) segments
      ∧ statements text = segments.filter holdsMore
      ∧ ∀ segment ∈ segments, holdsMore segment = false →
        (∀ c ∈ segment, isBlank c = true ∨ c = ';') ∧ segment.count ';' ≤ 1 := by
  obtain ⟨hpartition, -, hsegments⟩ := segmentsFrom_partition (stripComments text)
  refine ⟨_, hpartition, ?_, ?_⟩
  · rw [statements]
    refine List.filter_congr fun segment hsegment => ?_
    obtain ⟨front, uncut, hfront⟩ := hsegments segment hsegment
    exact holdsText_eq_holdsMore uncut hfront
  · intro segment hsegment hnone
    obtain ⟨front, uncut, hfront⟩ := hsegments segment hsegment
    refine ⟨fun c hc => ?_, count_end_le uncut hfront hnone⟩
    have hkept := List.any_eq_false.1 hnone c hc
    by_cases hend : c = ';'
    · exact Or.inr hend
    · exact Or.inl (by simpa [hend] using hkept)

end GoScaffold.Sql
