import GoScaffold.Grammar.Ddl
import GoScaffold.Proofs.Grammar.Repeated
import GoScaffold.Proofs.Schema.Declaration
import GoScaffold.Proofs.Schema.Reading

set_option autoImplicit false

/-! # Types and defaults as they are written

The grammar takes a written type or default as a whole, and the tree that it leaves tells where it
stands. It is followed by white space and then by a clause, a comma or the end of the definitions
(`AfterPart`); none of these carries it on, whatever comes later. -/

namespace GoScaffold.Declaration

open Grammar Grammar.Expr Text

/-! ## Numbers -/

theorem toString_nat_digits (n : Nat) :
    (toString n).toList ≠ [] ∧ ∀ c ∈ (toString n).toList, c.isDigit = true := by
  have h : (toString n).toList = Nat.toDigits 10 n := by
    rw [Nat.toString_eq_ofList_toDigits, String.toList_ofList]
  rw [h]
  exact ⟨Nat.toDigits_ne_nil, fun c hc => Nat.isDigit_of_mem_toDigits (by decide) (by decide) hc⟩

theorem toString_int_digits (i : Int) : ∃ sign digits, (toString i).toList = sign ++ digits
    ∧ (sign = [] ∨ sign = ['-']) ∧ digits ≠ [] ∧ ∀ c ∈ digits, c.isDigit = true := by
  cases i with
  | ofNat n => exact ⟨[], _, rfl, .inl rfl, toString_nat_digits n⟩
  | negSucc n =>
    refine ⟨['-'], _, ?_, .inr rfl, toString_nat_digits (n + 1)⟩
    show ("-" ++ toString (n + 1)).toList = _
    rw [String.toList_append]
    rfl

/-! ## What follows a part -/

/-- The words that may follow a part of a column: those that begin clauses, or none. -/
def clauseHeads : List String :=
  ["", "NOT", "NULL", "AUTO_INCREMENT", "PRIMARY", "UNIQUE", "DEFAULT", "ON", "COMMENT"]

theorem clauseHeads_capital :
    ∀ w ∈ clauseHeads, ∀ c ∈ w.toList, c.toUpper = c ∧ Scan.isIdentChar c = true := by
  decide

/-- What may follow a part of a column: white space and then a clause, a comma or the end. -/
structure AfterPart (gap rest : List Char) : Prop extends Parted gap rest where
  heads : Heads clauseHeads rest
  noParen : ∀ c ∈ rest.head?, c ≠ '('

theorem AfterPart.of_mark {gap : List Char} {c : Char} (cs : List Char)
    (hgap : Parted gap (c :: cs)) (hc : c = ',' ∨ c = ')') : AfterPart gap (c :: cs) := by
  have hc : Scan.isIdentChar c = false ∧ c ≠ '(' := by rcases hc with rfl | rfl <;> decide
  exact ⟨hgap, Heads.mono (Heads.of_mark cs hc.1) (by decide), by simpa using hc.2⟩

theorem endsNumber_of_parted {gap rest : List Char} (h : Parted gap rest) :
    Scan.EndsNumber (gap ++ rest) :=
  fun c hc => ⟨(h.ends c hc).1, fun hdot => (h.ends c hc).2 (by simp [hdot])⟩

theorem noQuote_of_parted {gap rest : List Char} (h : Parted gap rest) {q : Char}
    (hq : q = '\'' ∨ q = '"') : ∀ c ∈ (gap ++ rest).head?, c ≠ q := by
  rintro c hc rfl
  exact (h.ends c hc).2 (by rcases hq with rfl | rfl <;> simp)

/-! ## Literals -/

theorem Remark.toList_sql (r : Remark) : r.sql.toList = Sql.literal r.quote r.value.toList := by
  simp [sql]

/-- The literal as a remark in single quotes. -/
def Literal.remark (l : Literal) : Remark := ⟨'\'', .inl rfl, l.value⟩

theorem Literal.sql_remark (l : Literal) : l.remark.sql = l.sql := by
  refine String.toList_injective ?_
  simp [remark, Remark.toList_sql, sql, Sql.literal, Sql.escape_eq_double l.plain]

theorem Literal.toList_sql (l : Literal) : l.sql.toList = Sql.literal '\'' l.value.toList := by
  rw [← l.sql_remark]
  exact l.remark.toList_sql

theorem Name.toList_sql (n : Name) : n.sql.toList = '`' :: (n.text.toList ++ ['`']) := by
  simp [sql, Sql.backticked]

theorem Name.no_backtick (n : Name) : '`' ∉ n.text.toList := fun h => by
  have := n.plain _ h
  revert this
  decide

theorem Remark.takes (r : Remark) (before : List Char) {gap rest : List Char} (h : Parted gap rest) :
    Takes Ddl.stringLiteral before (r.sql.toList ++ gap) rest
      [.node .stringLiteral (width before) (width before + width r.sql.toList) []] := by
  rw [r.toList_sql]
  exact Takes.of_found (found_literal r.quoted before r.value.toList (noQuote_of_parted h r.quoted)) h

theorem Remark.settled_sql (r : Remark) (rest : List Char) : Settled (r.sql.toList ++ rest) := by
  have hplain : Scan.isSpace r.quote = false ∧ r.quote ≠ '#' ∧ r.quote ≠ '-' ∧ r.quote ≠ '/' := by
    rcases r.quoted with h | h <;> rw [h] <;> decide
  rw [r.toList_sql]
  exact settled_cons _ hplain.1 hplain.2

theorem Remark.stringAt (r : Remark) (before after : List Char) :
    stringAt (before ++ (r.sql.toList ++ after))
      ⟨width before, width before + width r.sql.toList⟩ = r.value := by
  rw [r.toList_sql, stringAt_literal r.quoted, String.ofList_toList]

theorem Name.takes (n : Name) (before : List Char) {gap rest : List Char} (h : Parted gap rest) :
    Takes Ddl.identifier before (n.sql.toList ++ gap) rest
      [.node .identifier (width before) (width before + width n.sql.toList) []] := by
  rw [Name.toList_sql]
  exact Takes.backticked before n.no_backtick h

theorem Name.nameAt (n : Name) (before after : List Char) :
    nameAt (before ++ (n.sql.toList ++ after))
      ⟨width before, width before + width n.sql.toList⟩ = n.text := by
  rw [Name.toList_sql, nameAt_backticked before after n.no_backtick, String.ofList_toList]

/-! ## Types -/

namespace ColumnType

theorem found_typeModifier {before rest : List Char} (h : Heads clauseHeads rest) :
    found Ddl.typeModifier (.place before rest) = none := by
  have hkw {k : Keyword} (hk : ∀ u ∈ k.words, u ∉ clauseHeads) :=
    found_kw_eq_none before h clauseHeads_capital hk
  simp (disch := decide) [Ddl.typeModifier, Ddl.charsetClause, Ddl.collateClause, found, hkw]

theorem found_typeArgs {before rest : List Char} (h : ∀ c ∈ rest.head?, c ≠ '(') :
    found Ddl.typeArgs (.place before rest) = none := by
  simp [Ddl.typeArgs, found, found_mark_eq_none before rfl h]

theorem keyword_shape (t : ColumnType) : ∃ c cs, t.keyword.toList = c :: cs ∧ c.isAlpha = true
    ∧ (∀ d ∈ cs, isWordChar d = true) ∧ raise (c :: cs) = c :: cs := by
  cases t <;> simp only [keyword] <;> exact ⟨_, _, rfl, by decide, by decide, by decide⟩

/-- The keyword of a type and then whatever stands for arguments and modifiers. -/
theorem takes_keyword (t : ColumnType) {before gap detail rest : List Char} {words : List String}
    {us : List Tree} (hgap : Parted gap (detail ++ rest)) (h : Heads words (detail ++ rest))
    (hcapital : ∀ w ∈ words, ∀ c ∈ w.toList, c.toUpper = c ∧ Scan.isIdentChar c = true)
    (hwords : "PRECISION" ∉ words ∧ "VARYING" ∉ words)
    (hdetail : Takes (.seq (.opt Ddl.typeArgs) (.many Ddl.typeModifier))
      (before ++ (t.keyword.toList ++ gap)) detail rest us) :
    ∃ stop, Takes Ddl.dataType before ((t.keyword.toList ++ gap) ++ detail) rest
      [.node .dataType (width before) stop
        (.node .typeName (width before) (width before + width t.keyword.toList) [] :: us)] := by
  have hkeyword : Takes Ddl.typeName before (t.keyword.toList ++ gap) (detail ++ rest)
      [.node .typeName (width before) (width before + width t.keyword.toList) []] := by
    refine Takes.of_found (found_token _ _ ?_) hgap
    obtain ⟨c, cs, hshape, hc, hcs, hraise⟩ := t.keyword_shape
    rw [hshape, raise_append, hraise]
    exact Scan.typeName_append hc hcs (endsWord_raise hgap.endsWord)
  have hprecision : Takes (.opt (Ddl.kw .precision)) (before ++ (t.keyword.toList ++ gap)) []
      (detail ++ rest) [] :=
    .opt_none _ (found_kw_eq_none _ h hcapital (by simpa [Keyword.words, Keyword.spelling] using hwords.1))
      hgap.settled
  have hvarying : Takes (.opt (Ddl.kw .varying)) (before ++ (t.keyword.toList ++ gap)) []
      (detail ++ rest) [] :=
    .opt_none _ (found_kw_eq_none _ h hcapital (by simpa [Keyword.words, Keyword.spelling] using hwords.2))
      hgap.settled
  have hall := hkeyword.seq
    (hprecision.seq_of_eq (hvarying.seq_of_eq hdetail rfl (by simp)) rfl (by simp))
  simpa [Ddl.dataType] using hall.phrase .dataType

theorem takes_typeArg (n : Nat) {before gap rest : List Char} (h : Parted gap rest) :
    ∃ t, Takes Ddl.typeArg before ((toString n).toList ++ gap) rest [t] := by
  obtain ⟨hne, hdigits⟩ := toString_nat_digits n
  have hfound := found_digits before (.inl rfl) hne hdigits (endsNumber_of_parted h)
  exact ⟨_, Takes.alt_left (Takes.of_found hfound h)⟩

/-- Arguments in parentheses, and no modifiers after them. -/
theorem takes_typeArgs {before gap args rest : List Char} {ts : List Tree} (h : AfterPart gap rest)
    (hargs : Takes (Ddl.list Ddl.typeArg) (before ++ ['(']) args (')' :: (gap ++ rest)) ts)
    (hfirst : Settled (args ++ ')' :: (gap ++ rest))) :
    ∃ us, Takes (.seq (.opt Ddl.typeArgs) (.many Ddl.typeModifier)) before
      ('(' :: (args ++ ')' :: gap)) rest us := by
  have hopen : Takes (Ddl.mark '(') before ['('] (args ++ ')' :: (gap ++ rest)) [] :=
    .mark _ rfl (by simp) hfirst
  have hclose : Takes (Ddl.mark ')') (before ++ ['('] ++ args) (')' :: gap) rest [] :=
    .mark _ rfl h.space h.settled
  obtain ⟨stop, hphrase⟩ := (hopen.seq_of_eq ((Takes.opt hargs).seq hclose) (by simp) rfl).phrase .typeArgs
  have hmodifiers : Takes (.many Ddl.typeModifier) (before ++ ('(' :: (args ++ ')' :: gap))) [] rest
      [] := .many_none _ (found_typeModifier h.heads) h.settled
  have hall := (Takes.opt hphrase).seq hmodifiers
  exact ⟨_, by simpa [Ddl.typeArgs] using hall⟩

theorem settled_toString (n : Nat) (cs : List Char) : Settled ((toString n).toList ++ cs) := by
  obtain ⟨hne, hdigits⟩ := toString_nat_digits n
  cases hn : (toString n).toList with
  | nil => exact absurd hn hne
  | cons c digits => exact settled_of_isDigit _ (hdigits c (by rw [hn]; exact List.mem_cons_self ..))

/-- The tree of a type with the keyword at its front. -/
def IsTypeTree (t : ColumnType) (before : List Char) (tree : Tree) : Prop :=
  ∃ stop us, tree = .node .dataType (width before) stop
    (.node .typeName (width before) (width before + width t.keyword.toList) [] :: us)

theorem takes_plain {t : ColumnType} {before gap rest : List Char} (ht : t.detail = "")
    (h : AfterPart gap rest) :
    ∃ tree, Takes Ddl.dataType before (t.sql.toList ++ gap) rest [tree] ∧ t.IsTypeTree before tree := by
  have hargs : Takes (.opt Ddl.typeArgs) (before ++ (t.keyword.toList ++ gap)) [] rest [] :=
    .opt_none _ (found_typeArgs h.noParen) h.settled
  have hmodifiers : Takes (.many Ddl.typeModifier) (before ++ (t.keyword.toList ++ gap)) [] rest
      [] := .many_none _ (found_typeModifier h.heads) h.settled
  obtain ⟨stop, htype⟩ := t.takes_keyword h.toParted h.heads clauseHeads_capital (by decide)
    (hargs.seq_of_eq hmodifiers rfl (by simp))
  exact ⟨_, by simpa [sql, ht] using htype, stop, _, rfl⟩

theorem takes_unsigned {before gap rest : List Char} (h : AfterPart gap rest) :
    ∃ tree, Takes Ddl.dataType before (ColumnType.int.sql.toList ++ gap) rest [tree]
      ∧ ColumnType.int.IsTypeTree before tree := by
  have hheads : Heads ["UNSIGNED"] (Keyword.unsigned.spelling.toList ++ gap ++ rest) :=
    ⟨"UNSIGNED", by simp, gap ++ rest, by simp [Keyword.spelling], h.endsWord⟩
  have hsettled := hheads.settled (by decide)
  have hargs : Takes (.opt Ddl.typeArgs) (before ++ (ColumnType.int.keyword.toList ++ [' '])) []
      (Keyword.unsigned.spelling.toList ++ gap ++ rest) [] :=
    .opt_none _ (found_typeArgs (by simp [Keyword.spelling])) hsettled
  have hunsigned : Takes Ddl.typeModifier (before ++ (ColumnType.int.keyword.toList ++ [' ']))
      (Keyword.unsigned.spelling.toList ++ gap) rest _ := .alt_left (.kw _ .unsigned h.toParted)
  have hmodifiers := hunsigned.many_one (by simp [Keyword.spelling]) h.settled
    (found_typeModifier h.heads)
  have hdetail := hargs.seq_of_eq hmodifiers rfl (by simp)
  rw [List.nil_append] at hdetail
  obtain ⟨stop, htype⟩ := ColumnType.int.takes_keyword (Parted.blank hsettled) hheads (by decide)
    (by decide) hdetail
  exact ⟨_, by simpa [sql, keyword, detail, Keyword.spelling] using htype, stop, _, rfl⟩

/-- Numbers with commas between them. -/
def numbers (n : Nat) (ns : List Nat) : List Char :=
  (toString n).toList ++ ns.flatMap fun m => ',' :: ' ' :: (toString m).toList

theorem takes_numbers (n : Nat) (ns : List Nat) (before cs : List Char) :
    ∃ ts, Takes (Ddl.list Ddl.typeArg) before (numbers n ns) (')' :: cs) ts := by
  have hitem : ∀ m before gap rest, Parted gap rest →
      ∃ t, Takes Ddl.typeArg before ((toString m).toList ++ gap) rest [t] ∧ True :=
    fun m before gap rest h => (takes_typeArg m h).imp fun t ht => ⟨ht, trivial⟩
  have hcomma (cs : List Char) : Parted [] (',' :: cs) := .mark cs (by decide)
  have hend : Parted [] (')' :: cs) := .mark cs (by decide)
  have hsep : ∀ c ∈ [' '], Scan.isSpace c = true := by decide
  obtain ⟨ts, hts, -⟩ :=
    Takes.list (fun _ _ _ => True) hsep hitem settled_toString hcomma hend hend.settled (by simp)
      n ns before
  exact ⟨ts, by simpa [numbers] using hts⟩

theorem takes_withArgs {t : ColumnType} {before gap rest : List Char} {n : Nat} {ns : List Nat}
    (ht : t.detail.toList = '(' :: (numbers n ns ++ [')'])) (h : AfterPart gap rest) :
    ∃ tree, Takes Ddl.dataType before (t.sql.toList ++ gap) rest [tree] ∧ t.IsTypeTree before tree := by
  have hfirst : Settled (numbers n ns ++ ')' :: (gap ++ rest)) := by
    rw [numbers, List.append_assoc]
    exact settled_toString n _
  obtain ⟨ts, hts⟩ := takes_numbers n ns (before ++ t.keyword.toList ++ ['(']) (gap ++ rest)
  obtain ⟨us, hus⟩ := takes_typeArgs h hts hfirst
  have hgap : Parted [] ('(' :: (numbers n ns ++ ')' :: gap) ++ rest) := .mark _ (by decide)
  have hheads : Heads [""] ('(' :: (numbers n ns ++ ')' :: gap) ++ rest) := .of_mark _ (by decide)
  obtain ⟨stop, htype⟩ := t.takes_keyword hgap hheads (by decide) (by decide) (by simpa using hus)
  exact ⟨_, by simpa [sql, ht] using htype, stop, us, rfl⟩

/-- A written type is taken as a whole, and its tree tells where its keyword stands. -/
theorem takes (t : ColumnType) (before : List Char) {gap rest : List Char} (h : AfterPart gap rest) :
    ∃ tree, Takes Ddl.dataType before (t.sql.toList ++ gap) rest [tree] ∧ t.IsTypeTree before tree := by
  cases t with
  | int => exact takes_unsigned h
  | decimal precision scale =>
    have hdetail : (ColumnType.decimal precision scale).detail.toList
        = '(' :: (numbers precision [scale] ++ [')']) := by simp [detail, numbers]
    exact takes_withArgs hdetail h
  | varchar length =>
    have hdetail : (ColumnType.varchar length).detail.toList
        = '(' :: (numbers length [] ++ [')']) := by simp [detail, numbers]
    exact takes_withArgs hdetail h
  | _ => exact takes_plain rfl h

end ColumnType

/-! ## Defaults -/

namespace Default

theorem found_defaultValue {before piece rest : List Char} {t : Tree}
    (h : found (Ddl.currentTimestamp <|> Ddl.parenExpr <|> Ddl.signedNumber <|> Ddl.stringLiteral
        <|> Ddl.bitLiteral <|> Ddl.kw .null <|> Ddl.kw .true_ <|> Ddl.kw .false_ <|> Ddl.bareIdent)
      (.place before (piece ++ rest)) = some ([t], .place (before ++ piece) rest)) :
    found Ddl.defaultValue (.place before (piece ++ rest))
      = some ([.node .defaultValue (width before) (width before + width piece) [t]],
        .place (before ++ piece) rest) := by
  rw [Ddl.defaultValue, found, h]
  simp [Cursor.place]

/-- Neither a word for the current time nor a parenthesis begins with a digit or a sign. -/
theorem exists_first_of_number {sign digits : List Char} (hsign : sign = [] ∨ sign = ['-'])
    (hne : digits ≠ []) (hdigits : ∀ c ∈ digits, c.isDigit = true) :
    ∃ c cs, sign ++ digits = c :: cs ∧ c.toUpper ∉ ['C', 'L', 'N'] ∧ c ≠ '(' := by
  rcases hsign with rfl | rfl
  · obtain ⟨c, cs, rfl⟩ := List.exists_cons_of_ne_nil hne
    have hc := hdigits c List.mem_cons_self
    refine ⟨c, cs, rfl, fun hmem => ?_, ?_⟩
    · rw [toUpper_of_isDigit hc] at hmem
      simp only [List.mem_cons, List.not_mem_nil, or_false] at hmem
      rcases hmem with rfl | rfl | rfl <;> exact absurd hc (by decide)
    · rintro rfl
      exact absurd hc (by decide)
  · exact ⟨'-', digits, rfl, by decide⟩

/-- A written default is the value that the grammar finds, up to its last character. -/
theorem found_sql (value : Default) (before : List Char) {gap rest : List Char}
    (h : AfterPart gap rest) :
    ∃ t, found Ddl.defaultValue (.place before (value.sql.toList ++ (gap ++ rest)))
        = some ([.node .defaultValue (width before) (width before + width value.sql.toList) [t]],
          .place (before ++ value.sql.toList) (gap ++ rest))
      ∧ (t.rule = .currentTimestamp ↔ value = .now) := by
  cases value with
  | int value =>
    obtain ⟨sign, digits, hvalue, hsign, hne, hdigits⟩ := toString_int_digits value
    have hnumber := found_digits before hsign hne hdigits (endsNumber_of_parted h.toParted)
    obtain ⟨c, cs, hcs, hword, hmark⟩ := exists_first_of_number hsign hne hdigits
    refine ⟨.node .signedNumber (width before) (width before + width (toString value).toList) [],
      found_defaultValue ?_, by simp [Tree.rule]⟩
    show found _ (.place before ((toString value).toList ++ _))
      = some (_, .place (before ++ (toString value).toList) _)
    rw [hvalue]
    rw [hcs, List.cons_append] at hnumber ⊢
    have hnow := found_currentTimestamp_eq_none before (cs ++ (gap ++ rest)) hword
    have hparen := found_parenExpr_eq_none before (cs ++ (gap ++ rest)) hmark
    simp only [orElse_eq, found, hnow, hparen, hnumber, Option.none_or, Option.some_or]
  | string value =>
    have hquoted := found_literal (.inl rfl) before value.value.toList
      (noQuote_of_parted h.toParted (.inl rfl))
    rw [← value.toList_sql] at hquoted
    refine ⟨.node .stringLiteral (width before) (width before + width value.sql.toList) [],
      found_defaultValue ?_, by simp [Tree.rule]⟩
    show found _ (.place before (value.sql.toList ++ _))
      = some (_, .place (before ++ value.sql.toList) _)
    rw [value.toList_sql, Sql.literal, List.cons_append] at hquoted ⊢
    have hnow (cs : List Char) : found Ddl.currentTimestamp (.place before ('\'' :: cs)) = none :=
      found_currentTimestamp_eq_none before cs (by decide)
    have hparen (cs : List Char) : found Ddl.parenExpr (.place before ('\'' :: cs)) = none :=
      found_parenExpr_eq_none before cs (by decide)
    have hnumber (cs : List Char) : found Ddl.signedNumber (.place before ('\'' :: cs)) = none :=
      found_signedNumber_eq_none before cs (by decide) (by decide)
    simp only [orElse_eq, found, hnow, hparen, hnumber, Option.none_or, hquoted, Option.some_or]
  | now =>
    have hnow := found_currentTimestamp before h.toParted h.noParen
    refine ⟨.node .currentTimestamp (width before) (width before + width "CURRENT_TIMESTAMP".toList)
      [], found_defaultValue ?_, by simp [Tree.rule]⟩
    show found _ (.place before ("CURRENT_TIMESTAMP".toList ++ _))
      = some (_, .place (before ++ "CURRENT_TIMESTAMP".toList) _)
    simp only [orElse_eq, found, hnow, Option.some_or]

/-- A written default stands without white space and parentheses around it. -/
theorem stripParens_sql (value : Default) :
    stripParens (trimBlank value.sql.toList) = value.sql.toList := by
  have hplain {cs : List Char} (htrim : trimBlank cs = cs) (hcs : ∀ c ∈ cs.head?, c ≠ '(') :
      stripParens (trimBlank cs) = cs := by
    rw [htrim, stripParens]
    cases cs with
    | nil => rfl
    | cons c cs => simp [between?, hcs c (by simp)]
  cases value with
  | int value =>
    obtain ⟨sign, digits, hvalue, hsign, hne, hdigits⟩ := toString_int_digits value
    have hchars : ∀ c ∈ (toString value).toList, c = '-' ∨ c.isDigit = true := by
      intro c hc
      rw [hvalue, List.mem_append] at hc
      rcases hc with hc | hc
      · rcases hsign with rfl | rfl
        · simp at hc
        · exact .inl (by simpa using hc)
      · exact .inr (hdigits c hc)
    have hnot (c : Char) (hc : c ∈ (toString value).toList) : isBlank c = false ∧ c ≠ '(' := by
      rcases hchars c hc with rfl | hc
      · decide
      · have hrange := isDigit_iff.1 hc
        refine ⟨?_, ?_⟩
        · simp [isBlank]
          omega
        · rintro rfl
          exact absurd hrange (by decide)
    refine hplain (trimWhere_eq_self_of_forall fun c hc => (hnot c hc).1) ?_
    intro c hc
    exact (hnot c (List.mem_of_mem_head? hc)).2
  | string value =>
    show stripParens (trimBlank value.sql.toList) = value.sql.toList
    rw [value.toList_sql]
    exact hplain (trimWhere_eq_self _ (by decide) (by decide)) (by simp [Sql.literal])
  | now => decide

/-- Neither white space nor a comment begins a written default. -/
theorem settled_sql (value : Default) (rest : List Char) : Settled (value.sql.toList ++ rest) := by
  cases value with
  | int value =>
    obtain ⟨sign, digits, hvalue, hsign, hne, hdigits⟩ := toString_int_digits value
    show Settled ((toString value).toList ++ rest)
    rw [hvalue]
    cases digits with
    | nil => exact absurd rfl hne
    | cons c cs =>
      have hc := hdigits c (List.mem_cons_self ..)
      rcases hsign with rfl | rfl
      · exact settled_of_isDigit _ hc
      · exact settled_minus _ hc
  | string value =>
    show Settled (value.sql.toList ++ rest)
    rw [← value.sql_remark]
    exact value.remark.settled_sql rest
  | now => exact settled_cons _ (by decide) (by decide)

end Default

end GoScaffold.Declaration
