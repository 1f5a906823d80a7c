import GoScaffold.Proofs.Grammar.Token
import GoScaffold.Proofs.Sql.Quoting
import GoScaffold.Schema.Basic

set_option autoImplicit false

/-! # Names as statements spell them

Statements put names into backticks as they are. Whether that is a quoted identifier that spells the
name hangs on the backticks in the name alone: the grammar reads the whole of it where they come in
pairs, and reads the name back where no two of them meet, so both hold just for names without
backticks (`backticked_iff`). -/

namespace GoScaffold

/-! ## Doubling -/

namespace Sql

variable {q : Char} {cs : List Char}

theorem double_cons_self (q : Char) (cs : List Char) : double q (q :: cs) = q :: q :: double q cs := by
  simp [double]

theorem double_cons_of_ne {c : Char} (h : c ≠ q) (cs : List Char) :
    double q (c :: cs) = c :: double q cs := by
  simp [double, h]

/-- Doubling changes just the texts that hold the character. -/
theorem double_eq_self_iff : double q cs = cs ↔ q ∉ cs := by
  have hlength (cs : List Char) : cs.length ≤ (double q cs).length := by
    induction cs with
    | nil => exact Nat.le_refl 0
    | cons c cs ih =>
      by_cases hc : c = q
      · rw [hc, double_cons_self, List.length_cons, List.length_cons, List.length_cons]
        omega
      · rw [double_cons_of_ne hc, List.length_cons, List.length_cons]
        omega
  induction cs with
  | nil => simp [double]
  | cons c cs ih =>
    by_cases hc : c = q
    · rw [hc, double_cons_self]
      refine iff_of_false (fun hsame => ?_) (by simp)
      have := congrArg List.length hsame
      have := hlength cs
      simp only [List.length_cons] at *
      omega
    · simp only [double_cons_of_ne hc, List.cons.injEq, true_and, ih, List.mem_cons, not_or,
        Ne.symm hc, not_false_eq_true]

theorem undouble_double (q : Char) (cs : List Char) : undouble q (double q cs) = cs := by
  induction cs with
  | nil => rfl
  | cons c cs ih =>
    by_cases hc : c = q
    · rw [hc, double_cons_self, undouble, if_pos ⟨rfl, rfl⟩, ih]
    · rw [double_cons_of_ne hc]
      cases hrest : double q cs with
      | nil =>
        rw [hrest] at ih
        rw [← ih, undouble, undouble]
      | cons d ds => rw [undouble, if_neg fun h => hc h.1, ← hrest, ih]

theorem length_undouble_le (q : Char) (cs : List Char) : (undouble q cs).length ≤ cs.length := by
  fun_induction undouble q cs with
  | case1 => exact Nat.le_refl _
  | case2 c => exact Nat.le_refl _
  | case3 c d cs h ih => simp only [List.length_cons]; omega
  | case4 c d cs h ih => simp only [List.length_cons] at ih ⊢; omega

/-- Where no two of the character meet, there is nothing to undouble. -/
theorem undouble_eq_self_iff : undouble q cs = cs ↔ ¬[q, q] <:+: cs := by
  fun_induction undouble q cs with
  | case1 => simp
  | case2 c => simp [List.infix_cons_iff]
  | case3 c d cs h ih =>
    rw [h.1, h.2]
    have hinfix : [q, q] <:+: q :: q :: cs := ⟨[], cs, rfl⟩
    refine iff_of_false (fun hsame => ?_) (not_not_intro hinfix)
    have := congrArg List.length hsame
    have := length_undouble_le q cs
    simp only [List.length_cons] at *
    omega
  | case4 c d cs h ih =>
    have hfirst : ¬[q, q] <+: c :: d :: cs := by
      simp only [List.cons_prefix_cons, List.nil_prefix, and_true]
      exact fun hcd => h ⟨hcd.1.symm, hcd.2.symm⟩
    have hinfix : [q, q] <:+: c :: d :: cs ↔ [q, q] <+: c :: d :: cs ∨ [q, q] <:+: d :: cs :=
      List.infix_cons_iff
    rw [List.cons.injEq, and_iff_right rfl, ih, hinfix, not_or, and_iff_right hfirst]

/-- What a doubled text and its end begin with: the end, a doubled character or another one. -/
theorem cases_of_cons_eq_double {c : Char} {name : List Char} (h : c :: cs = double q name ++ [q]) :
    (c = q ∧ cs = []) ∨ (c = q ∧ ∃ rest, cs = q :: (double q rest ++ [q]))
      ∨ (c ≠ q ∧ ∃ rest, cs = double q rest ++ [q]) := by
  cases name with
  | nil => exact .inl (List.cons.inj h)
  | cons d rest =>
    by_cases hd : d = q
    · rw [hd, double_cons_self] at h
      obtain ⟨hc, hcs⟩ := List.cons.inj h
      exact .inr (.inl ⟨hc, rest, hcs⟩)
    · rw [double_cons_of_ne hd] at h
      obtain ⟨hc, hcs⟩ := List.cons.inj h
      exact .inr (.inr ⟨hc ▸ hd, rest, hcs⟩)

end Sql

/-! ## Reading the spelling -/

namespace Grammar.Scan

/-- The end of a quoted identifier is the end of the text if the backticks before it come in pairs. -/
theorem backtickEnd_eq_self_iff {cs : List Char} :
    backtickEnd cs = some (cs, []) ↔ ∃ name, cs = Sql.double '`' name ++ ['`'] := by
  fun_induction backtickEnd cs with
  | case1 => simp
  | case2 => exact iff_of_true rfl ⟨[], rfl⟩
  | case3 c hc =>
    refine iff_of_false (by simp) ?_
    rintro ⟨name, hname⟩
    have hlast := congrArg List.getLast? hname
    exact hc (by simpa using hlast)
  | case4 cs ih =>
    have hbehind : behind '`' (behind '`' (backtickEnd cs)) = some ('`' :: '`' :: cs, [])
        ↔ backtickEnd cs = some (cs, []) := by
      simp [behind]
    rw [hbehind, ih]
    constructor
    · rintro ⟨name, rfl⟩
      exact ⟨'`' :: name, by rw [Sql.double_cons_self]; rfl⟩
    · rintro ⟨name, hname⟩
      rcases Sql.cases_of_cons_eq_double hname with ⟨-, hend⟩ | ⟨-, rest, hrest⟩ | ⟨hother, -⟩
      · cases hend
      · exact ⟨rest, (List.cons.inj hrest).2⟩
      · exact absurd rfl hother
  | case5 d cs hd =>
    refine iff_of_false (by simp) ?_
    rintro ⟨name, hname⟩
    rcases Sql.cases_of_cons_eq_double hname with ⟨-, hend⟩ | ⟨-, rest, hrest⟩ | ⟨hother, -⟩
    · cases hend
    · exact hd (List.cons.inj hrest).1
    · exact hother rfl
  | case6 c d cs hc ih =>
    have hbehind : behind c (backtickEnd (d :: cs)) = some (c :: d :: cs, [])
        ↔ backtickEnd (d :: cs) = some (d :: cs, []) := by
      simp [behind]
    rw [hbehind, ih]
    constructor
    · rintro ⟨name, hname⟩
      exact ⟨c :: name, by rw [Sql.double_cons_of_ne hc, hname]; rfl⟩
    · rintro ⟨name, hname⟩
      rcases Sql.cases_of_cons_eq_double hname with ⟨hquote, -⟩ | ⟨hquote, -⟩ | ⟨-, hrest⟩
      · exact absurd hquote hc
      · exact absurd hquote hc
      · exact hrest

end Grammar.Scan

namespace Sql

open Grammar Text

/-- Whether all of a spelling is read as one quoted identifier. -/
def IsWhole (spelling : String) : Prop :=
  Scan.quotedIdent spelling.toList = some (spelling.toList, [])

/-- The name that a spelling stands for. -/
def spelled (spelling : String) : String := String.ofList (unquoteIdentifier spelling.toList)

theorem toList_backticked (name : String) :
    (backticked name).toList = '`' :: (name.toList ++ ['`']) := by
  simp [backticked]

/-- A name in backticks is one identifier if its own backticks come in pairs. -/
theorem isWhole_backticked_iff (name : String) :
    IsWhole (backticked name) ↔ ∃ text, name.toList = double '`' text := by
  have hquoted : Scan.quotedIdent ('`' :: (name.toList ++ ['`']))
      = behind '`' (Scan.backtickEnd (name.toList ++ ['`'])) := by
    simp [Scan.quotedIdent, Scan.chain, Scan.word, behind, List.isPrefixOf?]
  have hbehind : behind '`' (Scan.backtickEnd (name.toList ++ ['`']))
        = some ('`' :: (name.toList ++ ['`']), [])
      ↔ Scan.backtickEnd (name.toList ++ ['`']) = some (name.toList ++ ['`'], []) := by
    simp [behind]
  rw [IsWhole, toList_backticked, hquoted, hbehind, Scan.backtickEnd_eq_self_iff]
  simp only [List.append_cancel_right_eq]

/-- A name in backticks is read back if no two of its own backticks meet. -/
theorem spelled_backticked_iff (name : String) :
    spelled (backticked name) = name ↔ ¬['`', '`'] <:+: name.toList := by
  have hspelled : unquoteIdentifier (backticked name).toList = undouble '`' name.toList := by
    have htrim : trimBlank ('`' :: (name.toList ++ ['`'])) = '`' :: (name.toList ++ ['`']) :=
      trimWhere_eq_self name.toList (by decide) (by decide)
    have hbetween : between? '`' '`' ('`' :: (name.toList ++ ['`'])) = some name.toList :=
      between?_eq_some.2 rfl
    rw [toList_backticked]
    simp only [unquoteIdentifier, htrim, hbetween]
  rw [spelled, hspelled, ← undouble_eq_self_iff, ← String.toList_inj, String.toList_ofList]

/-- What statements write for a name. It is one identifier if the backticks in the name come in pairs,
and it is read as the name if no two of them meet; both if and only if the name has no backtick. -/
theorem backticked_iff (name : String) :
    (IsWhole (backticked name) ↔ ∃ text, name.toList = double '`' text)
      ∧ (spelled (backticked name) = name ↔ ¬['`', '`'] <:+: name.toList)
      ∧ (IsWhole (backticked name) ∧ spelled (backticked name) = name ↔ '`' ∉ name.toList) := by
  refine ⟨isWhole_backticked_iff name, spelled_backticked_iff name, ?_⟩
  rw [isWhole_backticked_iff, spelled_backticked_iff, ← undouble_eq_self_iff]
  constructor
  · rintro ⟨⟨text, htext⟩, hsame⟩
    -- Undoubling gives the text and leaves the name, so doubling has changed nothing.
    rw [htext, undouble_double] at hsame
    rw [htext, ← hsame]
    exact double_eq_self_iff.1 hsame.symm
  · intro hname
    exact ⟨⟨name.toList, (double_eq_self_iff.2 hname).symm⟩, undouble_eq_self hname⟩

/-- A table whose names are written with doubled backticks. -/
def doubledBackticks : String := "CREATE TABLE `a``b` (`c````d` INT);"

/-- The declaration is read as a table; its name in backticks ends before the last one, and the name
of its column in backticks is read as another. -/
theorem not_isWhole_doubledBackticks :
    (Schema.parse doubledBackticks).tables
        = [{ name := "a`b", columns := [{ name := "c``d", declaredType := "INT" }] }]
      ∧ ¬IsWhole (backticked "a`b") ∧ spelled (backticked "c``d") ≠ "c``d" := by
  refine ⟨by decide +kernel, fun h => ?_, by decide⟩
  have hread : Scan.quotedIdent (backticked "a`b").toList = some ("`a`".toList, "b`".toList) := by
    decide
  rw [IsWhole, hread] at h
  exact absurd h (by decide)

end Sql

end GoScaffold
