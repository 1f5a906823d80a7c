import GoScaffold.Proofs.Grammar.MirroredRules
import GoScaffold.Proofs.Schema.Telling
import GoScaffold.Proofs.Sql.Declaring
import GoScaffold.Proofs.Sql.Stripping
import GoScaffold.Schema.Basic

set_option autoImplicit false

/-! # Declarations without their comments

A text without `;` is read with its comments removed, as one statement (`Schema.parse_isOnly_iff`).
Removing comments goes by rules that know nothing of quotes, while the grammar knows where a token
is. So a declaration keeps its table where the two agree and no more than spacing is changed
(`readTable_of_respaced`), and a mark of a comment inside quotes may cost the table. -/

namespace GoScaffold

/-- The text that is read of a schema text: without comments, whatever quotes they stand in. -/
def stripped (s : String) : String := String.ofList (Sql.stripComments s.toList)

/-- What a schema text holds when it holds one table and nothing else. -/
def Schema.IsOnly (schema : Schema) (t : Table) : Prop := schema.tables = [t] ∧ schema.skipped = []

theorem Schema.parse_of_notMem {s : String} (h : ';' ∉ s.toList) :
    Schema.parse s
      = if Sql.holdsText (Sql.stripComments s.toList) then (ofStatement (stripped s)).append {}
        else {} := by
  rw [Schema.parse, Sql.statements_of_notMem h]
  split <;> rfl

theorem parseTable_eq_ok_some {s : String} {t : Table} :
    parseTable s = .ok (some t) ↔ ∃ warnings, readTable s = .ok (some (t, warnings)) := by
  rw [parseTable]
  rcases readTable s with e | _ | ⟨u, warnings⟩
  · simp [Except.map]
  · simp [Except.map]
  · simp [Except.map]

theorem Schema.ofStatement_isOnly_iff {s : String} {t : Table} :
    ((ofStatement s).append {}).IsOnly t ↔ parseTable s = .ok (some t) := by
  rw [parseTable_eq_ok_some, ofStatement]
  rcases readTable s with e | _ | ⟨u, warnings⟩
  · simp [append, IsOnly]
  · simp [append, IsOnly]
  · simp [append, IsOnly]

theorem isTableDeclaration_of_parseTable {s : String} {t : Table}
    (h : parseTable s = .ok (some t)) : Sql.isTableDeclaration s.toList = true := by
  obtain ⟨warnings, h⟩ := parseTable_eq_ok_some.1 h
  rw [readTable] at h
  cases hdeclares : Sql.isTableDeclaration s.toList with
  | true => rfl
  | false => simp [hdeclares] at h

/-- A text without `;` holds exactly a table if and only if the text without its comments declares
that table. -/
theorem Schema.parse_isOnly_iff {s : String} {t : Table} (h : ';' ∉ s.toList) :
    (Schema.parse s).IsOnly t ↔ parseTable (stripped s) = .ok (some t) := by
  rw [parse_of_notMem h]
  cases hheld : Sql.holdsText (Sql.stripComments s.toList) with
  | true => exact ofStatement_isOnly_iff
  | false =>
    constructor
    · rintro ⟨htables, -⟩
      exact absurd htables (by simp)
    · intro hparse
      have hdeclares := isTableDeclaration_of_parseTable hparse
      rw [stripped, String.toList_ofList] at hdeclares
      rw [Sql.holdsText_of_isTableDeclaration hdeclares] at hheld
      exact absurd hheld (by simp)

/-! ## Texts that differ in their spacing -/

open Text

open Grammar (Tree Respaced Spot)

open Grammar.Expr (found parse_eq_ok)

/-- Words and white space hold no quote, no parenthesis and no opening of a comment. -/
theorem plain_of_isBlank_or_isWordChar {c : Char} (h : isBlank c = true ∨ isWordChar c = true) :
    c ∉ ['#', '-', '/', '(', ')'] ∧ Grammar.isQuote c = false := by
  have hnone : ∀ d ∈ ['#', '-', '/', '(', ')', '`', '\'', '"'],
      isBlank d = false ∧ isWordChar d = false := by decide
  have hne : c ∉ ['#', '-', '/', '(', ')', '`', '\'', '"'] := by
    intro hc
    obtain ⟨hblank, hword⟩ := hnone c hc
    rcases h with h | h
    · exact absurd h (by simp [hblank])
    · exact absurd h (by simp [hword])
  simp only [List.mem_cons, not_or] at hne
  simp [Grammar.isQuote, hne]

/-- A text spaced in another way declares a table as well. -/
theorem isTableDeclaration_of_respaced {cs cs' : List Char} (h : Respaced .head cs cs')
    (hdeclares : Sql.isTableDeclaration cs = true) : Sql.isTableDeclaration cs' = true := by
  obtain ⟨lead, w, rest, rfl, hlead, hw, hrest⟩ := Sql.isTableDeclaration_iff.1 hdeclares
  have hplain : ∀ c ∈ lead ++ w, c ∉ ['#', '-', '/', '(', ')'] ∧ Grammar.isQuote c = false := by
    intro c hc
    refine plain_of_isBlank_or_isWordChar ?_
    rcases List.mem_append.1 hc with hc | hc
    · exact Or.inl (hlead c hc)
    · simpa using hw.isBlank_or_isWordChar c.toUpper (List.mem_map_of_mem hc)
  have hlast : ∀ c ∈ (lead ++ w).getLast?, Grammar.Scan.isSpace c = false := by
    obtain ⟨d, v, rfl, -⟩ := hw.exists_cons
    intro c hc
    rw [List.getLast?_append, List.getLast?_cons, Option.some_or] at hc
    rw [← Grammar.Scan.isSpace_toUpper, hw.getLast? c (by rwa [List.getLast?_cons])]
    rfl
  obtain ⟨rest', rfl, hrest'⟩ := h.verbatim (List.append_assoc ..).symm hplain hlast
  exact Sql.isTableDeclaration_iff.2
    ⟨lead, w, rest', List.append_assoc .., hlead, hw, hrest'.wordEnds hrest⟩

theorem declarationTree_eq_ok_some {cs : List Char} {t : Tree} :
    declarationTree cs = .ok (some t) ↔
      ∃ ts c, found Grammar.Ddl.createTable (.place [] cs) = some (t :: ts, c) := by
  have hplace : Grammar.Cursor.place [] cs = ⟨0, raise cs⟩ := rfl
  rw [declarationTree, hplace]
  cases hparse : Grammar.parse Grammar.Ddl.createTable (raise cs) with
  | error failure =>
    constructor
    · intro h
      exact absurd h (by simp [Except.map])
    · rintro ⟨ts, c, hfound⟩
      rw [parse_eq_ok.2 ⟨c, hfound⟩] at hparse
      exact absurd hparse (by simp)
  | ok us =>
    obtain ⟨c, hfound⟩ := parse_eq_ok.1 hparse
    rw [hfound]
    cases us with
    | nil => simp [Except.map]
    | cons u us => simp [Except.map]

theorem readTable_eq_ok_some {s : String} {t : Table} {warnings : List Warning} :
    readTable s = .ok (some (t, warnings)) ↔
      Sql.isTableDeclaration s.toList = true ∧ ∃ tree, declarationTree s.toList = .ok (some tree)
        ∧ ((Outline.ofTree tree).fill s.toList).1 = t
        ∧ ((Outline.ofTree tree).fill s.toList).2 ++ duplicateWarnings t = warnings := by
  rw [readTable]
  cases Sql.isTableDeclaration s.toList with
  | false => simp
  | true =>
    rcases declarationTree s.toList with failure | _ | tree
    · simp
    · simp
    · constructor
      · intro h
        simp only [Bool.not_true, Bool.false_eq_true, if_false, Except.ok.injEq, Option.some.injEq,
          Prod.mk.injEq] at h
        obtain ⟨rfl, hwarnings⟩ := h
        exact ⟨rfl, tree, rfl, rfl, hwarnings⟩
      · rintro ⟨-, other, htree, rfl, rfl⟩
        obtain rfl := Option.some.inj (Except.ok.inj htree)
        rfl

theorem eq_ok_of_toOption {ε α : Type} {r : Except ε α} {a : α} (h : r.toOption = some a) :
    r = .ok a := by
  cases r with
  | error e => exact absurd h (by simp [Except.toOption])
  | ok b => rw [Option.some.inj h]

/-- What is read is the first tree that is found, filled. -/
theorem toOption_readTable (s : String) :
    (readTable s).toOption
      = if Sql.isTableDeclaration s.toList = true then
          ((found Grammar.Ddl.createTable (.place [] s.toList)).bind (·.1.head?)).map fun tree =>
            let (table, warnings) := (Outline.ofTree tree).fill s.toList
            some (table, warnings ++ duplicateWarnings table)
        else some none := by
  have hplace : Grammar.Cursor.place [] s.toList = ⟨0, raise s.toList⟩ := rfl
  rw [readTable]
  cases Sql.isTableDeclaration s.toList with
  | false => rfl
  | true =>
    simp only [declarationTree, Bool.not_true, Bool.false_eq_true, if_false, if_true, hplace]
    cases hparse : Grammar.parse Grammar.Ddl.createTable (raise s.toList) with
    | error failure =>
      cases hfound : found Grammar.Ddl.createTable ⟨0, raise s.toList⟩ with
      | none => rfl
      | some outcome =>
        rw [parse_eq_ok.2 ⟨outcome.2, hfound⟩] at hparse
        cases hparse
    | ok ts =>
      obtain ⟨c, hfound⟩ := parse_eq_ok.1 hparse
      rw [hfound]
      cases ts <;> rfl

/-- Of two texts that are matched alike the same is read. -/
theorem readTable_congr {R : Grammar.Pairing} {T : Grammar.Zone → Prop} {s s' : String}
    (hdeclares : Sql.isTableDeclaration s.toList = Sql.isTableDeclaration s'.toList)
    (h : Grammar.Expr.Alike R False T ⟨[], [], s.toList, s'.toList⟩
      (found Grammar.Ddl.createTable (.place [] s.toList))
      (found Grammar.Ddl.createTable (.place [] s'.toList))) :
    (readTable s).toOption = (readTable s').toOption := by
  rw [toOption_readTable, toOption_readTable, hdeclares]
  cases h with
  | fails here there => rw [here, there]; rfl
  | leads z w w' q ts ts' leaves here there taken told zone rest =>
    rw [here, there]
    rw [Tree.toldAll_eq_map, Tree.toldAll_eq_map] at told
    cases ts with
    | nil =>
      obtain rfl : ts' = [] := List.map_eq_nil_iff.1 told.symm
      rfl
    | cons tree ts =>
      cases ts' with
      | nil => simp at told
      | cons tree' ts' =>
        -- Only what the trees tell is filled in.
        have hsame : tree.told s.toList = tree'.told s'.toList := (List.cons.inj told).1
        have hfill := Outline.fill_congr (Outline.draft_ofTree_congr hsame)
        simp only [Option.bind_some, List.head?_cons, Option.map_some, hfill]

/-- A declaration spaced in another way is read as the same table. -/
theorem readTable_of_respaced {s s' : String} {t : Table} {warnings : List Warning}
    (h : Respaced .head s.toList s'.toList) (hread : readTable s = .ok (some (t, warnings))) :
    readTable s' = .ok (some (t, warnings)) := by
  obtain ⟨hdeclares, tree, htree, -⟩ := readTable_eq_ok_some.1 hread
  obtain ⟨ts, c, hfound⟩ := declarationTree_eq_ok_some.1 htree
  let p : Spot := ⟨[], [], s.toList, s'.toList⟩
  have hhere : found Grammar.Ddl.createTable p.here = some (tree :: ts, c) := hfound
  rcases Grammar.Ddl.createTable_alike (p := p) rfl rfl h with hnone | halike
  · exact absurd hnone (by simp [hhere])
  · have hdeclares' := isTableDeclaration_of_respaced h hdeclares
    have hsame := readTable_congr (hdeclares.trans hdeclares'.symm) halike
    rw [hread] at hsame
    exact eq_ok_of_toOption hsame.symm

/-- A text without `;` that declares a table holds exactly that table if and only if it declares the
same table without its comments. It does so wherever removing them changes no more than spacing. -/
theorem Schema.parse_isOnly_of_parseTable {s : String} {t : Table} (huncut : ';' ∉ s.toList)
    (hparse : parseTable s = .ok (some t)) :
    ((Schema.parse s).IsOnly t ↔ parseTable (stripped s) = .ok (some t))
      ∧ (Respaced .head s.toList (Sql.stripComments s.toList) → (Schema.parse s).IsOnly t) := by
  refine ⟨parse_isOnly_iff huncut, fun hspaced => (parse_isOnly_iff huncut).2 ?_⟩
  obtain ⟨warnings, hread⟩ := parseTable_eq_ok_some.1 hparse
  refine parseTable_eq_ok_some.2 ⟨warnings, readTable_of_respaced ?_ hread⟩
  rwa [stripped, String.toList_ofList]

/-- A declaration with comments that hold a quote and a parenthesis. -/
def commented : String := "CREATE TABLE t ( -- it's\n a INT /* ( */)"

/-- Without its comments it only has other spacing. -/
theorem respaced_commented :
    Respaced .head commented.toList (Sql.stripComments commented.toList) := by
  -- From the end to the front, as each step tells what stands before the rest.
  have hend : Respaced .body [')'] [')'] :=
    .char rfl (by decide +kernel) (by decide +kernel) (by decide) .stop
  have hblock : Respaced .body (" /* ( */".toList ++ [')']) (" ".toList ++ [')']) :=
    .gap (by simp) (by decide +kernel) (by decide +kernel) (by simp) (by decide +kernel)
      (fun h => nomatch h) hend
  have htype := hblock.word (w := "INT".toList) (by decide) (by simp)
  have hcolumn := (htype.blank (c := ' ') rfl (by decide +kernel) (by decide +kernel)).word
    (w := "a".toList) (by decide) (by simp)
  have hline : Respaced .body (" -- it's\n ".toList ++ _) (" \n ".toList ++ _) :=
    .gap (by simp) (by decide +kernel) (by decide +kernel) (by simp) (by decide +kernel)
      (fun h => nomatch h) hcolumn
  have hlist : Respaced .head ('(' :: _) ('(' :: _) :=
    .char rfl (by decide +kernel) (by decide +kernel) (by decide) hline
  have hname := (hlist.blank (c := ' ') rfl (by decide +kernel) (by decide +kernel)).word
    (w := "t".toList) (by decide) (by simp)
  have htable := (hname.blank (c := ' ') rfl (by decide +kernel) (by decide +kernel)).word
    (w := "TABLE".toList) (by decide) (by simp)
  have hcreate := (htable.blank (c := ' ') rfl (by decide +kernel) (by decide +kernel)).word
    (w := "CREATE".toList) (by decide) (by simp)
  have hstripped : Sql.stripComments commented.toList = "CREATE TABLE t ( \n a INT )".toList := by
    decide +kernel
  rw [hstripped]
  exact hcreate

/-- A declaration with comments is read with them and without them. -/
theorem parse_isOnly_commented :
    (';' ∉ commented.toList ∧ parseTable commented
        = .ok (some { name := "t", columns := [{ name := "a", declaredType := "INT" }] }))
      ∧ (Schema.parse commented).IsOnly
          { name := "t", columns := [{ name := "a", declaredType := "INT" }] } := by
  have huncut : ';' ∉ commented.toList := by decide
  have hparse : parseTable commented
      = .ok (some { name := "t", columns := [{ name := "a", declaredType := "INT" }] }) :=
    eq_ok_of_toOption (by decide +kernel)
  exact ⟨⟨huncut, hparse⟩, (Schema.parse_isOnly_of_parseTable huncut hparse).2 respaced_commented⟩

/-- A declaration with a `#` in a string, on a line that ends. -/
def hashInString : String := "CREATE TABLE t (a INT COMMENT '#'\n)"

/-- The end of the string is taken for a comment, and the table is lost. -/
theorem not_parse_isOnly_hashInString :
    ';' ∉ hashInString.toList ∧ '\r' ∉ hashInString.toList
      ∧ parseTable hashInString = .ok (some
          { name := "t", columns := [{ name := "a", declaredType := "INT", comment := some "#" }] })
      ∧ ¬(Schema.parse hashInString).IsOnly
          { name := "t", columns := [{ name := "a", declaredType := "INT", comment := some "#" }] } := by
  have huncut : ';' ∉ hashInString.toList := by decide
  refine ⟨huncut, by decide, eq_ok_of_toOption (by decide +kernel), ?_⟩
  rw [Schema.parse_isOnly_iff huncut]
  intro hparse
  have hnone : (parseTable (stripped hashInString)).toOption = none := by decide +kernel
  rw [hparse] at hnone
  exact absurd hnone (by simp [Except.toOption])

end GoScaffold
