import GoScaffold.Proofs.Grammar.Padded
import GoScaffold.Proofs.Schema.Stripped
import GoScaffold.Proofs.Text.Trimming

set_option autoImplicit false

/-! # Declarations with white space around them

Whether a statement declares a table is told without the white space around it, of whatever kind. The
grammar then reads the statement as it is, and knows four kinds of white space. Before a declaration any
other kind is an error, and those four make no difference. They make none after it either, but for a
space that turns two dashes at the end into a comment (`parseTable_trim`). -/

namespace GoScaffold

open Text

open Grammar (Pads Settled Scan.isSpace)

open Grammar.Expr (found)

/-! ## Texts and the white space around them -/

/-- The white space before the text. -/
def leading (s : String) : List Char := s.toList.takeWhile isBlank

/-- The text without the white space before it. -/
def trimStart (s : String) : String := String.ofList (s.toList.dropWhile isBlank)

/-- The white space after the text. -/
def trailing (s : String) : List Char := (trimStart s).toList.rtakeWhile isBlank

theorem toList_eq_leading (s : String) : s.toList = leading s ++ (trimStart s).toList := by
  rw [leading, trimStart, String.toList_ofList, List.takeWhile_append_dropWhile]

theorem toList_trimStart (s : String) : (trimStart s).toList = (trim s).toList ++ trailing s := by
  rw [trim, onChars, String.toList_ofList, trimBlank, trimWhere, dropEndWhile_eq_rdropWhile, trailing,
    trimStart, String.toList_ofList, List.rdropWhile_append_rtakeWhile]

theorem trimBlank_trim (s : String) : trimBlank (trim s).toList = trimBlank s.toList := by
  rw [trim, onChars, String.toList_ofList, trimBlank_trimBlank]

theorem trimBlank_trimStart (s : String) : trimBlank (trimStart s).toList = trimBlank s.toList := by
  rw [trimStart, String.toList_ofList, trimBlank, trimBlank, trimWhere, trimWhere,
    List.dropWhile_idempotent]

theorem isTableDeclaration_of_trimBlank {cs cs' : List Char} (h : trimBlank cs = trimBlank cs') :
    Sql.isTableDeclaration cs = Sql.isTableDeclaration cs' := by
  rw [Sql.isTableDeclaration, Sql.isTableDeclaration, h]

/-- A declaration without white space before it begins with a letter. -/
theorem exists_cons_of_isTableDeclaration {cs : List Char} (hfirst : ∀ c ∈ cs.head?, isBlank c = false)
    (h : Sql.isTableDeclaration cs = true) : ∃ c more, cs = c :: more ∧ c.toUpper = 'C' := by
  obtain ⟨lead, w, rest, rfl, hlead, hopens, -⟩ := Sql.isTableDeclaration_iff.1 h
  cases lead with
  | cons c lead =>
    have hblank := hlead c (List.mem_cons_self ..)
    rw [hfirst c rfl] at hblank
    exact absurd hblank Bool.false_ne_true
  | nil =>
    obtain ⟨c, more, rfl, hc⟩ := Sql.Opens.exists_cons hopens
    exact ⟨c, more ++ rest, rfl, hc⟩

/-! ## White space before a declaration -/

/-- White space of another kind than the grammar's is not skipped. -/
theorem exists_settled_leading {s : String} (h : ∃ c ∈ leading s, Scan.isSpace c = false) :
    ∃ lead c rest, s.toList = lead ++ c :: rest ∧ (∀ d ∈ lead, Scan.isSpace d = true)
      ∧ isBlank c = true ∧ Settled (c :: rest) := by
  have hne : (leading s).dropWhile Scan.isSpace ≠ [] := by
    obtain ⟨c, hc, hspace⟩ := h
    intro hnil
    exact absurd (List.dropWhile_eq_nil_iff.1 hnil c hc) (by simp [hspace])
  obtain ⟨c, more, hmore⟩ := List.exists_cons_of_ne_nil hne
  have hsplit : leading s = (leading s).takeWhile Scan.isSpace ++ c :: more := by
    rw [← hmore, List.takeWhile_append_dropWhile]
  have hblank : isBlank c = true := by
    have hmem : c ∈ leading s := by
      rw [hsplit]
      simp
    exact List.mem_takeWhile_imp hmem
  have hspace : Scan.isSpace c = false := by
    have hfirst := List.head?_dropWhile_not Scan.isSpace (leading s)
    rw [hmore] at hfirst
    simpa using hfirst
  have hmark {d : Char} (hd : isBlank d = false) : c ≠ d := by
    rintro rfl
    exact absurd hblank (by simp [hd])
  refine ⟨(leading s).takeWhile Scan.isSpace, c, more ++ (trimStart s).toList, ?_,
    fun d hd => List.mem_takeWhile_imp hd, hblank,
    Grammar.settled_cons _ hspace ⟨hmark rfl, hmark rfl, hmark rfl⟩⟩
  conv_lhs => rw [toList_eq_leading s, hsplit, List.append_assoc, List.cons_append]

theorem found_createTable_eq_none {lead rest : List Char} {c : Char}
    (hlead : ∀ d ∈ lead, Scan.isSpace d = true) (hsettled : Settled (c :: rest))
    (hc : c.toUpper ≠ 'C') :
    found Grammar.Ddl.createTable (.place [] (lead ++ c :: rest)) = none := by
  have hskip : (Grammar.Cursor.place [] (lead ++ c :: rest)).skip = .place lead (c :: rest) :=
    Grammar.Cursor.skip_place hlead hsettled
  have hcreate : found (Grammar.Ddl.kw .create) (.place lead (c :: rest)) = none := by
    have hword : Grammar.Scan.keyword ["CREATE"] (c.toUpper :: raise rest) = none := by
      simp [Grammar.Scan.keyword, Grammar.Scan.chain, Grammar.Scan.first, Grammar.Scan.either,
        Grammar.Scan.word, List.isPrefixOf?, Ne.symm hc]
    show found (.token _ (Grammar.Scan.keyword ["CREATE"])) _ = none
    simp [found, Grammar.Cursor.advance?, Grammar.Cursor.place, hword]
  refine Grammar.Expr.found_phrase_eq_none (e := .seq .start (.seq (Grammar.Ddl.kw .create) _)) ?_
  rw [Grammar.Expr.found_seq_start rfl hskip]
  exact Grammar.Expr.found_seq_eq_none hcreate

theorem parseTable_eq_ok_none {s : String} :
    parseTable s = .ok none ↔ Sql.isTableDeclaration s.toList = false := by
  rw [parseTable, readTable]
  cases Sql.isTableDeclaration s.toList with
  | false => simp [Except.map]
  | true =>
    rcases declarationTree s.toList with failure | _ | tree
    · simp [Except.map]
    · simp [Except.map]
    · simp [Except.map]

theorem parseTable_ne_of_leading {s : String} (h : ∃ c ∈ leading s, Scan.isSpace c = false) (t : Table) :
    parseTable s ≠ .ok (some t) := by
  intro hparse
  obtain ⟨warnings, hread⟩ := parseTable_eq_ok_some.1 hparse
  obtain ⟨-, tree, htree, -⟩ := readTable_eq_ok_some.1 hread
  obtain ⟨ts, d, hfound⟩ := declarationTree_eq_ok_some.1 htree
  obtain ⟨lead, c, rest, hs, hlead, hblank, hsettled⟩ := exists_settled_leading h
  have hletter : c.toUpper ≠ 'C' := by
    intro hc
    rw [← Sql.isBlank_toUpper, hc] at hblank
    exact absurd hblank (by decide)
  rw [hs, found_createTable_eq_none hlead hsettled hletter] at hfound
  cases hfound

/-! ## White space around a declaration -/

theorem toOption_parseTable (s : String) :
    (parseTable s).toOption = (readTable s).toOption.map fun found => found.map (·.1) := by
  rw [parseTable]
  cases readTable s <;> rfl

/-- White space of the grammar around a text makes no difference. -/
theorem toOption_parseTable_of_padded {s s' : String} {front back : List Char}
    (hs : s.toList = front ++ (s'.toList ++ back)) (hfront : ∀ c ∈ front, Scan.isSpace c = true)
    (hback : Pads s'.toList back) (hfirst : ∀ c ∈ s'.toList.head?, isBlank c = false)
    (htrim : trimBlank s'.toList = trimBlank s.toList) :
    (parseTable s).toOption = (parseTable s').toOption := by
  have hsame := isTableDeclaration_of_trimBlank htrim
  have hread : (readTable s').toOption = (readTable s).toOption := by
    cases hdeclares : Sql.isTableDeclaration s'.toList with
    | false =>
      rw [toOption_readTable, toOption_readTable, ← hsame, hdeclares, if_neg Bool.false_ne_true,
        if_neg Bool.false_ne_true]
    | true =>
      obtain ⟨c, more, htext, hc⟩ := exists_cons_of_isTableDeclaration hfirst hdeclares
      have hletter : Grammar.Scan.isIdentChar c = true := by
        rw [← Grammar.Scan.isIdentChar_toUpper, hc]
        rfl
      have hsettled : Settled s'.toList := by
        rw [htext]
        exact Grammar.settled_of_isIdentChar more hletter
      have hne : s'.toList ≠ [] := by
        rw [htext]
        exact List.cons_ne_nil c more
      have halike := Grammar.Ddl.createTable_padded hfront hback hne hsettled
      rw [← hs] at halike
      exact readTable_congr hsame halike
  rw [toOption_parseTable, toOption_parseTable, hread]

theorem toOption_parseTable_trimStart {s : String} (hleading : ∀ c ∈ leading s, Scan.isSpace c = true) :
    (parseTable s).toOption = (parseTable (trimStart s)).toOption := by
  have hs : s.toList = leading s ++ ((trimStart s).toList ++ []) := by
    rw [List.append_nil, ← toList_eq_leading]
  refine toOption_parseTable_of_padded hs hleading ⟨List.forall_mem_nil _, fun _ => by simp⟩ ?_
    (trimBlank_trimStart s)
  intro c hc
  have hfirst := List.head?_dropWhile_not isBlank s.toList
  rw [trimStart, String.toList_ofList] at hc
  rw [Option.mem_def.1 hc] at hfirst
  simpa using hfirst

theorem toOption_parseTable_trim {s : String} (hleading : ∀ c ∈ leading s, Scan.isSpace c = true)
    (htrailing : Pads (trim s).toList (trailing s)) :
    (parseTable s).toOption = (parseTable (trim s)).toOption := by
  have hs : s.toList = leading s ++ ((trim s).toList ++ trailing s) := by
    rw [← toList_trimStart, ← toList_eq_leading]
  refine toOption_parseTable_of_padded hs hleading htrailing ?_ (trimBlank_trim s)
  have htrimmed : trimBlank (trim s).toList = (trim s).toList := by
    rw [trimBlank_trim, trim, onChars, String.toList_ofList]
  exact (trimWhere_eq_self_iff.1 htrimmed).1

/-- White space around a statement does not tell whether it declares a table, but whether the table is
read. None is read with other white space than the grammar's before the declaration, and the grammar's
makes no difference there. After the declaration the grammar's makes none either, as far as it opens no
comment, and then the table that is read without any white space is read with it exactly if none but the
grammar's stands before it. -/
theorem parseTable_trim (s : String) :
    (parseTable s = .ok none ↔ parseTable (trim s) = .ok none)
    ∧ ((∃ c ∈ leading s, Scan.isSpace c = false) → ∀ t, parseTable s ≠ .ok (some t))
    ∧ ((∀ c ∈ leading s, Scan.isSpace c = true) →
        (parseTable s).toOption = (parseTable (trimStart s)).toOption)
    ∧ (Pads (trim s).toList (trailing s) →
        ((parseTable s).toOption = (parseTable (trim s)).toOption
          ↔ ∀ t, parseTable (trim s) = .ok (some t) → ∀ c ∈ leading s, Scan.isSpace c = true)) := by
  have hnone : parseTable s = .ok none ↔ parseTable (trim s) = .ok none := by
    rw [parseTable_eq_ok_none, parseTable_eq_ok_none, isTableDeclaration_of_trimBlank (trimBlank_trim s)]
  refine ⟨hnone, parseTable_ne_of_leading, toOption_parseTable_trimStart, fun htrailing =>
    ⟨fun hsame t ht c hc => ?_, fun hleading => ?_⟩⟩
  · by_contra hspace
    rw [ht] at hsame
    exact parseTable_ne_of_leading ⟨c, hc, by simpa using hspace⟩ t (eq_ok_of_toOption hsame)
  · by_cases hspaces : ∀ c ∈ leading s, Scan.isSpace c = true
    · exact toOption_parseTable_trim hspaces htrailing
    -- No table is read of either text, and both declare one or neither does.
    · have hother : ∃ c ∈ leading s, Scan.isSpace c = false := by simpa using hspaces
      have hne := parseTable_ne_of_leading hother
      have hne' : ∀ t, parseTable (trim s) ≠ .ok (some t) := fun t ht => hspaces (hleading t ht)
      rcases hs : parseTable s with e | _ | t
      · rcases ht : parseTable (trim s) with e' | _ | t
        · rfl
        · exact absurd (hnone.2 ht) (by simp [hs])
        · exact absurd ht (hne' t)
      · rw [hnone.1 hs]
      · exact absurd hs (hne t)

/-- A declaration among white space that the grammar knows, with a comment at its end. -/
def spaced : String := "\r\n\t CREATE TABLE t (a INT) -- x\n \t"

theorem parseTable_trim_spaced :
    Pads (trim spaced).toList (trailing spaced)
    ∧ (parseTable spaced).toOption = (parseTable (trim spaced)).toOption
    ∧ parseTable (trim spaced)
      = .ok (some { name := "t", columns := [{ name := "a", declaredType := "INT" }] }) := by
  have htrailing : Pads (trim spaced).toList (trailing spaced) :=
    ⟨by decide +kernel, by decide +kernel⟩
  have hleading : ∀ c ∈ leading spaced, Scan.isSpace c = true := by decide +kernel
  exact ⟨htrailing, ((parseTable_trim spaced).2.2.2 htrailing).2 fun _ _ => hleading,
    eq_ok_of_toOption (by decide +kernel)⟩

/-- A declaration with a vertical tab before it. -/
def tabbed : String := "\x0bCREATE TABLE t (a INT)"

/-- It is a declaration, which is read without the tab and not with it. -/
theorem not_parseTable_trim_tabbed :
    parseTable (trim tabbed)
      = .ok (some { name := "t", columns := [{ name := "a", declaredType := "INT" }] })
    ∧ (parseTable tabbed).toOption = none
    ∧ (parseTable tabbed).toOption ≠ (parseTable (trim tabbed)).toOption := by
  have hread : parseTable (trim tabbed)
      = .ok (some { name := "t", columns := [{ name := "a", declaredType := "INT" }] }) :=
    eq_ok_of_toOption (by decide +kernel)
  have hnone : (parseTable tabbed).toOption = none := by decide +kernel
  refine ⟨hread, hnone, ?_⟩
  rw [hread, hnone]
  exact Option.some_ne_none _ ∘ Eq.symm

end GoScaffold
