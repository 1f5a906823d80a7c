import GoScaffold.Proofs.Text.Trimming
import GoScaffold.Sql.Statement

set_option autoImplicit false

/-! # Splitting undoes joining

Texts that a scan leaves outside every quote and comment, and in which it meets no `;` on the way,
may be joined by `;` and split again: each comes back byte for byte, all but the last with the `;`
that ended it (`statements_joined`).

What carries the proof is that a scan has no memory but the quote or comment it is inside of: it
passes through each piece of a joined text as if that piece stood alone, and where it has left all
quotes and comments, the `;` that follows cuts the piece off (`segmentsFrom_closed`). -/

namespace GoScaffold.Sql

open Text

/-! ## The scan over one text after another -/

namespace Open

/-- Whether a scan that begins inside of `o` meets a `;` outside quotes and comments. -/
def meetsEnd : Open → List Char → Bool
  | _, [] => false
  | o, c :: cs => (o == .nothing && c == ';') || meetsEnd (o.next c) cs

/-- White space opens nothing. -/
theorem next_nothing_of_isBlank {c : Char} (h : isBlank c = true) :
    Open.nothing.next c = .nothing := by
  have hne : c ≠ '#' ∧ c ≠ '`' ∧ c ≠ '\'' ∧ c ≠ '"' := by
    refine ⟨?_, ?_, ?_, ?_⟩ <;> rintro rfl <;> exact absurd h (by decide)
  simp [next, Quote.ofChar?, hne]

end Open

/-! ## Segments -/

/-- A text in which no `;` ends a statement is one segment. -/
theorem segmentsFrom_uncut {o : Open} {cs : List Char} (h : o.meetsEnd cs = false) :
    segmentsFrom o cs = [cs] := by
  induction cs generalizing o with
  | nil => rfl
  | cons c cs ih =>
    simp only [Open.meetsEnd, Bool.or_eq_false_iff] at h
    obtain ⟨hc, hcs⟩ := h
    have hne : ¬(o = .nothing ∧ c = ';') := by simpa using hc
    rw [segmentsFrom, if_neg hne, ih hcs]

/-- A `;` after a text that the scan leaves outside quotes and comments ends the first segment, and
what follows is cut as if it stood alone. -/
theorem segmentsFrom_closed {o : Open} {cs : List Char} (rest : List Char)
    (uncut : o.meetsEnd cs = false) (closed : o.after cs = .nothing) :
    segmentsFrom o (cs ++ ';' :: rest) = (cs ++ [';']) :: segmentsFrom .nothing rest := by
  induction cs generalizing o with
  | nil =>
    obtain rfl : o = .nothing := closed
    simp [segmentsFrom]
  | cons c cs ih =>
    simp only [Open.meetsEnd, Bool.or_eq_false_iff] at uncut
    obtain ⟨hc, hcs⟩ := uncut
    have hne : ¬(o = .nothing ∧ c = ';') := by simpa using hc
    rw [List.cons_append, segmentsFrom, if_neg hne, ih hcs closed]
    rfl

/-! ## Joined texts -/

/-- The texts with a `;` between each two. -/
def joined : List (List Char) → List Char
  | [] => []
  | [p] => p
  | p :: q :: rest => p ++ ';' :: joined (q :: rest)

/-- The texts, each but the last with a `;` at its end. -/
def ended : List (List Char) → List (List Char)
  | [] => []
  | [p] => [p]
  | p :: q :: rest => (p ++ [';']) :: ended (q :: rest)

theorem length_ended (ps : List (List Char)) : (ended ps).length = ps.length := by
  induction ps with
  | nil => rfl
  | cons p ps ih =>
    cases ps with
    | nil => rfl
    | cons q rest => rw [ended, List.length_cons, ih, List.length_cons (a := p)]

/-- An ended text is one of the texts, perhaps with a `;` at its end. -/
theorem mem_ended {ps : List (List Char)} {s : List Char} (h : s ∈ ended ps) :
    ∃ p ∈ ps, s = p ∨ s = p ++ [';'] := by
  induction ps with
  | nil => simp [ended] at h
  | cons p ps ih =>
    cases ps with
    | nil =>
      rw [ended, List.mem_singleton] at h
      exact ⟨p, List.mem_cons_self .., Or.inl h⟩
    | cons q rest =>
      rw [ended, List.mem_cons] at h
      rcases h with h | h
      · exact ⟨p, List.mem_cons_self .., Or.inr h⟩
      · obtain ⟨r, hr, hs⟩ := ih h
        exact ⟨r, List.mem_cons_of_mem _ hr, hs⟩

theorem segmentsFrom_joined {p : List Char} {ps : List (List Char)}
    (closed : ∀ q ∈ p :: ps, Open.nothing.after q = .nothing)
    (uncut : ∀ q ∈ p :: ps, Open.nothing.meetsEnd q = false) :
    segmentsFrom .nothing (joined (p :: ps)) = ended (p :: ps) := by
  induction ps generalizing p with
  | nil => exact segmentsFrom_uncut (uncut p (List.mem_cons_self ..))
  | cons q rest ih =>
    have hp : p ∈ p :: q :: rest := List.mem_cons_self ..
    rw [joined, ended, segmentsFrom_closed _ (uncut p hp) (closed p hp)]
    rw [ih (fun r hr => closed r (List.mem_cons_of_mem _ hr))
      (fun r hr => uncut r (List.mem_cons_of_mem _ hr))]

/-! ## Segments that hold text -/

/-- Whatever follows, a segment whose first character besides white space is not `;` holds text. -/
theorem holdsText_of_first {blanks rest : List Char} {c : Char}
    (hblanks : ∀ d ∈ blanks, isBlank d = true) (hc : isBlank c = false) (hend : c ≠ ';') :
    holdsText (blanks ++ c :: rest) = true := by
  have hfirst : trimBlank (blanks ++ c :: rest) = c :: dropEndWhile isBlank rest := by
    rw [← trimBlank_cons_of_neg rest hc, trimBlank, trimWhere, trimBlank, trimWhere,
      List.dropWhile_append_of_pos hblanks]
  rw [holdsText, hfirst, dropEndWhile_cons_of_neg _ (by simpa using hend), trimBlank_cons_of_neg _ hc]
  rfl

/-- A text with something besides white space, in which no `;` ends a statement, begins with white
space and then a character other than `;`. -/
theorem exists_first {p : List Char} (held : ∃ c ∈ p, isBlank c = false)
    (uncut : Open.nothing.meetsEnd p = false) :
    ∃ blanks c rest, p = blanks ++ c :: rest ∧ (∀ d ∈ blanks, isBlank d = true)
      ∧ isBlank c = false ∧ c ≠ ';' := by
  induction p with
  | nil => simp at held
  | cons c cs ih =>
    simp only [Open.meetsEnd, Bool.or_eq_false_iff] at uncut
    obtain ⟨hend, huncut⟩ := uncut
    cases hc : isBlank c with
    | false => exact ⟨[], c, cs, rfl, by simp, hc, by simpa using hend⟩
    | true =>
      rw [Open.next_nothing_of_isBlank hc] at huncut
      obtain ⟨d, hd, hdb⟩ := held
      have hdcs : d ∈ cs := by
        rcases List.mem_cons.1 hd with rfl | hd
        · exact absurd hc (by simp [hdb])
        · exact hd
      obtain ⟨blanks, e, rest, rfl, hblanks, he, hne⟩ := ih ⟨d, hdcs, hdb⟩ huncut
      exact ⟨c :: blanks, e, rest, rfl, List.forall_mem_cons.2 ⟨hc, hblanks⟩, he, hne⟩

/-! ## Splitting undoes joining -/

/-- Texts that hold more than white space, that a scan leaves outside quotes and comments and in
which it meets no `;` there come back from their joined text, provided that no comment is removed
from it: as many statements as there were texts, each byte for byte, all but the last with its
`;`. -/
theorem statements_joined (ps : List (List Char))
    (held : ∀ p ∈ ps, ∃ c ∈ p, isBlank c = false)
    (closed : ∀ p ∈ ps, Open.nothing.after p = .nothing)
    (uncut : ∀ p ∈ ps, Open.nothing.meetsEnd p = false)
    (plain : stripComments (joined ps) = joined ps) :
    statements (joined ps) = ended ps ∧ (statements (joined ps)).length = ps.length := by
  have hfilter : (ended ps).filter holdsText = ended ps := by
    rw [List.filter_eq_self]
    intro s hs
    obtain ⟨p, hp, hsp⟩ := mem_ended hs
    obtain ⟨blanks, c, rest, rfl, hblanks, hc, hend⟩ := exists_first (held p hp) (uncut p hp)
    rcases hsp with rfl | rfl
    · exact holdsText_of_first hblanks hc hend
    · rw [List.append_assoc, List.cons_append]
      exact holdsText_of_first hblanks hc hend
  have hstatements : statements (joined ps) = ended ps := by
    rw [statements, plain]
    cases ps with
    | nil => rfl
    | cons p ps => rw [segmentsFrom_joined closed uncut, hfilter]
  exact ⟨hstatements, by rw [hstatements, length_ended]⟩

/-- Three texts with `;`, foreign, escaped and doubled quotes in their quotes. -/
def quotedEnds : List (List Char) := [
  "INSERT INTO a VALUES ('x;''y\\';\"')".toList, " SELECT \"it's;\" FROM `b;\"\\`".toList,
  "DROP TABLE c".toList]

theorem statements_joined_quotedEnds :
    (∀ p ∈ quotedEnds, ∃ c ∈ p, isBlank c = false)
      ∧ (∀ p ∈ quotedEnds, Open.nothing.after p = .nothing)
      ∧ (∀ p ∈ quotedEnds, Open.nothing.meetsEnd p = false)
      ∧ stripComments (joined quotedEnds) = joined quotedEnds
      ∧ statements (joined quotedEnds) = ended quotedEnds
      ∧ (statements (joined quotedEnds)).length = quotedEnds.length := by
  have held : ∀ p ∈ quotedEnds, ∃ c ∈ p, isBlank c = false := by decide
  have closed : ∀ p ∈ quotedEnds, Open.nothing.after p = .nothing := by decide
  have uncut : ∀ p ∈ quotedEnds, Open.nothing.meetsEnd p = false := by decide
  have plain : stripComments (joined quotedEnds) = joined quotedEnds := by decide
  exact ⟨held, closed, uncut, plain, statements_joined quotedEnds held closed uncut plain⟩

end GoScaffold.Sql
