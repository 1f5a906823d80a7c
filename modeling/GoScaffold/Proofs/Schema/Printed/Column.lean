import GoScaffold.Proofs.Schema.Printed.Type
import Mathlib.Data.List.Induction

set_option autoImplicit false

/-! # Columns as they are written

The grammar takes a written column as a whole, clause by clause, and the outline of its tree fills
into the column that is declared. Every clause is tried against the phrases before its own in the
grammar; none of them takes anything, as none begins with the same word. -/

namespace GoScaffold.Declaration

open Grammar Grammar.Expr Text

/-! ## Clauses -/

theorem Remark.takes_commentAttr (r : Remark) (before : List Char) {gap rest : List Char}
    (h : AfterPart gap rest) :
    ∃ t, Takes Ddl.commentAttr before ("COMMENT ".toList ++ r.sql.toList ++ gap) rest [t]
      ∧ ∀ o : ColumnOutline,
        (o.add t).fill (before ++ ("COMMENT ".toList ++ r.sql.toList ++ (gap ++ rest)))
          = { o.fill (before ++ ("COMMENT ".toList ++ r.sql.toList ++ (gap ++ rest))) with
              comment := some r.value } := by
  have hword : "COMMENT ".toList = Keyword.comment.spelling.toList ++ [' '] := by
    simp [Keyword.spelling]
  have hblank : Parted [' '] (r.sql.toList ++ gap ++ rest) := by
    rw [List.append_assoc]
    exact .blank (r.settled_sql _)
  obtain ⟨stop, hstop⟩ := ((Takes.kw before .comment hblank).seq (r.takes _ h.toParted)).phrase
    .commentAttr
  have htext : before ++ ("COMMENT ".toList ++ r.sql.toList ++ (gap ++ rest))
      = (before ++ (Keyword.comment.spelling.toList ++ [' '])) ++ (r.sql.toList ++ (gap ++ rest)) := by
    simp [hword]
  rw [htext, hword, List.append_assoc]
  refine ⟨_, hstop, fun o => ?_⟩
  rw [List.singleton_append, ColumnOutline.fill_add_comment, r.stringAt]

namespace Clause

/-- The column after one more clause. -/
def addTo (clause : Clause) (c : Column) : Column :=
  match clause with
  | .notNull => { c with flags := { c.flags with notNull := true } }
  | .null => c
  | .autoIncrement => { c with flags := { c.flags with autoIncrement := true } }
  | .primaryKey => { c with flags := { c.flags with primary := true } }
  | .unique => { c with flags := { c.flags with unique := true } }
  | .default value =>
    { c with
      flags := { c.flags with hasDefault := true, currentTimestamp := decide (value = .now) }
      default := some value.sql }
  | .onUpdateNow => { c with flags := { c.flags with onUpdate := true } }
  | .comment value => { c with comment := some value.value }

/-- What the tree of a clause says in the whole text. -/
def Says (whole : List Char) (clause : Clause) (t : Tree) : Prop :=
  ∀ o : ColumnOutline, (o.add t).fill whole = clause.addTo (o.fill whole)

/-- The first word. -/
def head : Clause → String
  | .notNull => "NOT"
  | .null => "NULL"
  | .autoIncrement => "AUTO_INCREMENT"
  | .primaryKey => "PRIMARY"
  | .unique => "UNIQUE"
  | .default _ => "DEFAULT"
  | .onUpdateNow => "ON"
  | .comment _ => "COMMENT"

theorem head_mem (clause : Clause) : clause.head ∈ clauseHeads := by
  cases clause <;> simp [head, clauseHeads]

theorem heads_sql (clause : Clause) {rest : List Char} (h : EndsWord rest) :
    Heads [clause.head] (clause.sql.toList ++ rest) := by
  have hsplit : ∃ more, clause.sql.toList = clause.head.toList ++ more
      ∧ (more = [] ∨ more.head? = some ' ') := by
    cases clause with
    | default value => exact ⟨' ' :: value.sql.toList, by simp [sql, head], .inr rfl⟩
    | comment value => exact ⟨' ' :: value.sql.toList, by simp [sql, head], .inr rfl⟩
    | notNull => exact ⟨" NULL".toList, by decide, .inr rfl⟩
    | primaryKey => exact ⟨" KEY".toList, by decide, .inr rfl⟩
    | onUpdateNow => exact ⟨" UPDATE CURRENT_TIMESTAMP".toList, by decide, .inr rfl⟩
    | _ => exact ⟨[], by decide, .inl rfl⟩
  obtain ⟨more, hmore, hhead⟩ := hsplit
  refine ⟨clause.head, by simp, more ++ rest, by simp [hmore], ?_⟩
  rcases hhead with rfl | hhead
  · exact h
  · cases more with
    | nil => simp at hhead
    | cons c cs =>
      have hc : c = ' ' := by simpa using hhead
      simp [EndsWord, hc]
      decide

variable {gap rest : List Char}

theorem takes_notNull (before : List Char) (h : AfterPart gap rest) :
    ∃ stop ts, Takes Ddl.notNull before (Clause.notNull.sql.toList ++ gap) rest
      [.node .notNull (width before) stop ts] := by
  have hpiece : Clause.notNull.sql.toList ++ gap
      = (Keyword.not_.spelling.toList ++ [' ']) ++ (Keyword.null.spelling.toList ++ gap) := by
    simp [sql, Keyword.spelling]
  have hheads : Heads ["NULL"] ((Keyword.null.spelling.toList ++ gap) ++ rest) :=
    ⟨"NULL", by simp, gap ++ rest, by simp [Keyword.spelling], h.endsWord⟩
  rw [hpiece]
  obtain ⟨stop, hstop⟩ := ((Takes.kw before .not_ (.blank (hheads.settled (by decide)))).seq
    (Takes.kw _ .null h.toParted)).phrase .notNull
  exact ⟨stop, _, hstop⟩

theorem takes_primaryAttr (before : List Char) (h : AfterPart gap rest) :
    ∃ stop ts, Takes Ddl.primaryAttr before (Clause.primaryKey.sql.toList ++ gap) rest
      [.node .primaryAttr (width before) stop ts] := by
  have hpiece : Clause.primaryKey.sql.toList ++ gap
      = (Keyword.primary.spelling.toList ++ [' ']) ++ (Keyword.key.spelling.toList ++ gap) := by
    simp [sql, Keyword.spelling]
  have hheads : Heads ["KEY"] ((Keyword.key.spelling.toList ++ gap) ++ rest) :=
    ⟨"KEY", by simp, gap ++ rest, by simp [Keyword.spelling], h.endsWord⟩
  rw [hpiece]
  obtain ⟨stop, hstop⟩ := ((Takes.kw before .primary (.blank (hheads.settled (by decide)))).opt.seq
    (Takes.kw _ .key h.toParted)).phrase .primaryAttr
  exact ⟨stop, _, hstop⟩

theorem takes_uniqueAttr (before : List Char) (h : AfterPart gap rest) :
    ∃ stop ts, Takes Ddl.uniqueAttr before (Clause.unique.sql.toList ++ gap) rest
      [.node .uniqueAttr (width before) stop ts] := by
  have hpiece : Clause.unique.sql.toList ++ gap = (Keyword.unique.spelling.toList ++ gap) ++ [] := by
    simp [sql, Keyword.spelling]
  have hkey : Takes (.opt (Ddl.kw .key)) (before ++ (Keyword.unique.spelling.toList ++ gap)) [] rest
      [] := .opt_none _ (found_kw_eq_none _ h.heads clauseHeads_capital (by decide)) h.settled
  rw [hpiece]
  obtain ⟨stop, hstop⟩ := ((Takes.kw before .unique h.toParted).seq hkey).phrase .uniqueAttr
  exact ⟨stop, _, hstop⟩

theorem takes_onUpdate (before : List Char) (h : AfterPart gap rest) :
    ∃ stop ts, Takes Ddl.onUpdate before (Clause.onUpdateNow.sql.toList ++ gap) rest
      [.node .onUpdate (width before) stop ts] := by
  have hpiece : Clause.onUpdateNow.sql.toList ++ gap = (Keyword.on.spelling.toList ++ [' '])
      ++ ((Keyword.update.spelling.toList ++ [' ']) ++ ("CURRENT_TIMESTAMP".toList ++ gap)) := by
    simp [sql, Keyword.spelling]
  have hnow : Heads ["CURRENT_TIMESTAMP"] ("CURRENT_TIMESTAMP".toList ++ gap ++ rest) :=
    ⟨"CURRENT_TIMESTAMP", by simp, gap ++ rest, by simp, h.endsWord⟩
  have hupdate : Heads ["UPDATE"] ((Keyword.update.spelling.toList ++ [' '])
      ++ ("CURRENT_TIMESTAMP".toList ++ gap ++ rest)) :=
    ⟨"UPDATE", by simp, ' ' :: ("CURRENT_TIMESTAMP".toList ++ gap ++ rest),
      by simp [Keyword.spelling], by simp [EndsWord]; decide⟩
  rw [hpiece]
  obtain ⟨stop, hstop⟩ := ((Takes.kw before .on (.blank (hupdate.settled (by decide)))).seq_of_eq
    ((Takes.kw _ .update (.blank (hnow.settled (by decide)))).seq
      (.of_found (found_currentTimestamp _ h.toParted h.noParen) h.toParted)) rfl rfl).phrase .onUpdate
  exact ⟨stop, _, hstop⟩

theorem takes_defaultClause (value : Default) (before : List Char) (h : AfterPart gap rest) :
    ∃ t, Takes Ddl.defaultClause before ((Clause.default value).sql.toList ++ gap) rest [t]
      ∧ Says (before ++ ((Clause.default value).sql.toList ++ (gap ++ rest))) (.default value) t := by
  have hpiece : (Clause.default value).sql.toList
      = (Keyword.default.spelling.toList ++ [' ']) ++ value.sql.toList := by
    simp [sql, Keyword.spelling]
  obtain ⟨t, hvalue, ht⟩ := value.found_sql (before ++ (Keyword.default.spelling.toList ++ [' '])) h
  have hblank : Parted [' '] (value.sql.toList ++ gap ++ rest) :=
    .blank (by simpa using value.settled_sql (gap ++ rest))
  obtain ⟨stop, hstop⟩ := ((Takes.kw before .default hblank).seq
    (.of_found hvalue h.toParted)).phrase .defaultClause
  have htext : before ++ ((Clause.default value).sql.toList ++ (gap ++ rest))
      = (before ++ (Keyword.default.spelling.toList ++ [' '])) ++ (value.sql.toList ++ (gap ++ rest)) := by
    simp [hpiece]
  rw [htext, hpiece, List.append_assoc]
  refine ⟨_, hstop, fun o => ?_⟩
  rw [List.singleton_append, ColumnOutline.fill_add_default, Span.slice_part, value.stripParens_sql]
  simp [addTo, ht]

/-- The phrase of the grammar for the clause. -/
def phrase : Clause → Expr
  | .notNull => Ddl.notNull
  | .null => Ddl.nullAttr
  | .autoIncrement => Ddl.autoIncrement
  | .primaryKey => Ddl.primaryAttr
  | .unique => Ddl.uniqueAttr
  | .default _ => Ddl.defaultClause
  | .onUpdateNow => Ddl.onUpdate
  | .comment _ => Ddl.commentAttr

theorem takes (clause : Clause) (before : List Char) (h : AfterPart gap rest) :
    ∃ t, Takes clause.phrase before (clause.sql.toList ++ gap) rest [t]
      ∧ Says (before ++ (clause.sql.toList ++ (gap ++ rest))) clause t := by
  cases clause with
  | notNull =>
    obtain ⟨stop, ts, ht⟩ := takes_notNull before h
    exact ⟨_, ht, fun o => rfl⟩
  | null =>
    obtain ⟨stop, ht⟩ := (Takes.kw before .null h.toParted).phrase .nullAttr
    exact ⟨_, ht, fun o => rfl⟩
  | autoIncrement =>
    obtain ⟨stop, ht⟩ := (Takes.kw before .autoIncrement h.toParted).phrase .autoIncrement
    exact ⟨_, ht, fun o => rfl⟩
  | primaryKey =>
    obtain ⟨stop, ts, ht⟩ := takes_primaryAttr before h
    exact ⟨_, ht, fun o => rfl⟩
  | unique =>
    obtain ⟨stop, ts, ht⟩ := takes_uniqueAttr before h
    exact ⟨_, ht, fun o => rfl⟩
  | default value => exact takes_defaultClause value before h
  | onUpdateNow =>
    obtain ⟨stop, ts, ht⟩ := takes_onUpdate before h
    exact ⟨_, ht, fun o => rfl⟩
  | comment value =>
    have htext : (Clause.comment value).sql.toList
        = "COMMENT ".toList ++ value.remark.sql.toList := by
      simp [sql, value.sql_remark]
    rw [htext]
    exact value.remark.takes_commentAttr before h

/-- No phrase that comes earlier in the grammar takes anything where the clause begins. -/
theorem found_columnAttr (clause : Clause) (before : List Char) {rest : List Char}
    (h : Heads [clause.head] rest) {found? : List Tree × Cursor}
    (hfound : found clause.phrase (.place before rest) = some found?) :
    found Ddl.columnAttr (.place before rest) = some found? := by
  have hcapital : ∀ w ∈ [clause.head], ∀ c ∈ w.toList, c.toUpper = c ∧ Scan.isIdentChar c = true := by
    intro w hw
    rw [List.mem_singleton.1 hw]
    exact clauseHeads_capital _ clause.head_mem
  have hskip : (Cursor.place before rest).skip = .place before rest := by
    refine Cursor.skip_place_of_settled (h.settled fun w hw => ⟨?_, fun c hc => (hcapital w hw c hc).2⟩)
    rw [List.mem_singleton.1 hw]
    cases clause <;> simp [head]
  -- Every phrase begins with a keyword, and no two that are written begin with the same one.
  have hkw {k : Keyword} (hk : ∀ u ∈ k.words, u ∉ [clause.head]) :=
    found_kw_eq_none before h hcapital hk
  cases clause with
  | notNull =>
    have hattr : found Ddl.notNull _ = _ := hfound
    simp [Ddl.columnAttr, found, hattr]
  | null =>
    have hattr : found Ddl.nullAttr _ = _ := hfound
    simp (disch := decide) [Ddl.columnAttr, Ddl.notNull, found, hkw, hattr]
  | default value =>
    have hattr : found Ddl.defaultClause _ = _ := hfound
    simp only [head] at hkw
    simp (disch := decide) [Ddl.columnAttr, Ddl.notNull, Ddl.nullAttr, found, hkw, hattr]
  | autoIncrement =>
    have hattr : found Ddl.autoIncrement _ = _ := hfound
    simp (disch := decide) [Ddl.columnAttr, Ddl.notNull, Ddl.nullAttr, Ddl.defaultClause, found,
      hkw, hattr]
  | onUpdateNow =>
    have hattr : found Ddl.onUpdate _ = _ := hfound
    simp (disch := decide) [Ddl.columnAttr, Ddl.notNull, Ddl.nullAttr, Ddl.defaultClause,
      Ddl.autoIncrement, found, hkw, hattr]
  | primaryKey =>
    have hattr : found Ddl.primaryAttr _ = _ := hfound
    simp (disch := decide) [Ddl.columnAttr, Ddl.notNull, Ddl.nullAttr, Ddl.defaultClause,
      Ddl.autoIncrement, Ddl.onUpdate, found, hkw, hattr]
  | unique =>
    have hattr : found Ddl.uniqueAttr _ = _ := hfound
    simp (disch := decide) [Ddl.columnAttr, Ddl.notNull, Ddl.nullAttr, Ddl.defaultClause,
      Ddl.autoIncrement, Ddl.onUpdate, Ddl.primaryAttr, found, hkw, hskip, hattr]
  | comment value =>
    have hattr : found Ddl.commentAttr _ = _ := hfound
    simp only [head] at hkw
    simp (disch := decide) [Ddl.columnAttr, Ddl.notNull, Ddl.nullAttr, Ddl.defaultClause,
      Ddl.autoIncrement, Ddl.onUpdate, Ddl.primaryAttr, Ddl.uniqueAttr, found, hkw, hskip, hattr]

theorem takes_columnAttr (clause : Clause) (before : List Char) (h : AfterPart gap rest) :
    ∃ t, Takes Ddl.columnAttr before (clause.sql.toList ++ gap) rest [t]
      ∧ Says (before ++ (clause.sql.toList ++ (gap ++ rest))) clause t := by
  have hheads : Heads [clause.head] (clause.sql.toList ++ gap ++ rest) := by
    rw [List.append_assoc]
    exact clause.heads_sql h.endsWord
  obtain ⟨t, ⟨stop, hstop, hd⟩, hsays⟩ := clause.takes before h
  exact ⟨t, ⟨stop, clause.found_columnAttr before hheads hstop, hd⟩, hsays⟩

theorem columnAttr_eq_none (before : List Char) {rest : List Char} (h : Heads [""] rest)
    (hrest : Settled rest) : found Ddl.columnAttr (.place before rest) = none := by
  have hskip : (Cursor.place before rest).skip = .place before rest :=
    Cursor.skip_place_of_settled hrest
  simp (disch := decide) [Ddl.columnAttr, Ddl.notNull, Ddl.nullAttr, Ddl.defaultClause,
    Ddl.autoIncrement, Ddl.onUpdate, Ddl.primaryAttr, Ddl.uniqueAttr, Ddl.commentAttr,
    Ddl.collateClause, Ddl.charsetClause, Ddl.generatedClause, Ddl.checkDef, Ddl.references,
    Ddl.visibility, Ddl.columnFormat, Ddl.storage, Ddl.srid, found,
    found_kw_eq_none_of_no_word before h, hskip]

end Clause

/-! ## Columns -/

theorem toList_concat (texts : List String) :
    (Text.concat texts).toList = texts.flatMap String.toList := by
  induction texts with
  | nil => rfl
  | cons text texts ih => simp [Text.concat, ih]

namespace ColumnDef

theorem column_concat (name : Name) (type : ColumnType) (clauses : List Clause) (clause : Clause) :
    column ⟨name, type, clauses ++ [clause]⟩ = clause.addTo (column ⟨name, type, clauses⟩) := by
  cases clause <;>
    simp [Clause.addTo, column, default?, Clause.default?, Clause.comment?, List.filterMap_append]

theorem foldl_addTo (c : ColumnDef) :
    c.clauses.foldl (fun column clause => clause.addTo column)
      { name := c.name.text, declaredType := c.type.keyword } = c.column := by
  obtain ⟨name, type, clauses⟩ := c
  induction clauses using List.reverseRecOn with
  | nil => simp [column, default?]
  | append_singleton clauses clause ih =>
    rw [List.foldl_append, ih]
    exact (column_concat name type clauses clause).symm

theorem toList_sql (c : ColumnDef) :
    c.sql.toList = c.name.sql.toList ++ [' '] ++ c.type.sql.toList
      ++ c.clauses.flatMap fun clause => ' ' :: clause.sql.toList := by
  simp [sql, toList_concat, List.flatMap_map]

/-- What the tree of a column says in the whole text. -/
def Says (whole : List Char) (c : ColumnDef) (t : Tree) : Prop :=
  t.rule = .columnDef ∧ (ColumnOutline.ofTree t).fill whole = c.column

end ColumnDef

/-- What may follow an item of a list in parentheses: white space and then a comma or the end. -/
structure AfterItem (gap rest : List Char) : Prop extends Parted gap rest where
  mark : ∃ c cs, rest = c :: cs ∧ (c = ',' ∨ c = ')')

theorem AfterItem.afterPart {gap rest : List Char} (h : AfterItem gap rest) :
    AfterPart gap rest := by
  obtain ⟨c, cs, rfl, hc⟩ := h.mark
  exact AfterPart.of_mark cs h.toParted hc

theorem AfterItem.heads {gap rest : List Char} (h : AfterItem gap rest) :
    Heads [""] rest := by
  obtain ⟨c, cs, rfl, hc⟩ := h.mark
  exact .of_mark cs (by rcases hc with rfl | rfl <;> decide)

namespace Clause

theorem word_sql (clause : Clause) {gap rest : List Char} (h : AfterPart gap rest) :
    ∃ c cs, clause.sql.toList ++ (gap ++ rest) = c :: cs ∧ Scan.isIdentChar c = true := by
  refine (clause.heads_sql h.endsWord).exists_cons fun w hw => ?_
  rw [List.mem_singleton.1 hw]
  refine ⟨by cases clause <;> simp [head], fun c hc => ?_⟩
  exact (clauseHeads_capital _ clause.head_mem c hc).2

theorem sql_ne_nil (clause : Clause) : clause.sql.toList ≠ [] := by
  cases clause <;> simp [sql]

theorem afterPart_blank (clause : Clause) (gap rest : List Char) (h : AfterPart gap rest) :
    AfterPart [' '] (clause.sql.toList ++ (gap ++ rest)) := by
  have hheads : Heads clauseHeads (clause.sql.toList ++ (gap ++ rest)) :=
    (clause.heads_sql h.endsWord).mono (by simpa using clause.head_mem)
  obtain ⟨c, cs, hcs, hc⟩ := clause.word_sql h
  rw [hcs] at hheads ⊢
  refine ⟨.blank (settled_of_isIdentChar cs hc), hheads, ?_⟩
  rintro d hd rfl
  have : c = '(' := by simpa using hd
  rw [this] at hc
  exact absurd hc (by decide)

end Clause

/-! ## Columns of parts -/

theorem ofTree_columnDef (a b c d e f g h : Nat) (args attrs : List Tree) :
    ColumnOutline.ofTree (.node .columnDef a b ([.node .identifier c d []]
        ++ ([.node .dataType e f (.node .typeName g h [] :: args)] ++ attrs)))
      = attrs.foldl ColumnOutline.add { name := some ⟨c, d⟩, declaredType := some ⟨g, h⟩ } :=
  rfl

/-- Parts that may stand in any order after the type of a column: how each is written, and what it
adds to the column. -/
structure Parts (α : Type) where
  text : α → List Char
  add : α → Column → Column
  takes : ∀ a before gap rest, AfterPart gap rest →
    ∃ t, Takes Ddl.columnAttr before (text a ++ gap) rest [t]
      ∧ ∀ o : ColumnOutline, (o.add t).fill (before ++ (text a ++ (gap ++ rest)))
        = add a (o.fill (before ++ (text a ++ (gap ++ rest))))
  ne_nil : ∀ a, text a ≠ []
  afterPart_blank : ∀ a gap rest, AfterPart gap rest → AfterPart [' '] (text a ++ (gap ++ rest))

namespace Parts

variable {α : Type} (P : Parts α)

/-- What the tree of a part says in the whole text. -/
def Says (whole : List Char) (a : α) (t : Tree) : Prop :=
  ∀ o : ColumnOutline, (o.add t).fill whole = P.add a (o.fill whole)

theorem fill_foldl {whole : List Char} {as : List α} {ts : List Tree}
    (h : List.Forall₂ (P.Says whole) as ts) (o : ColumnOutline) :
    (ts.foldl ColumnOutline.add o).fill whole
      = as.foldl (fun column a => P.add a column) (o.fill whole) := by
  induction h generalizing o with
  | nil => rfl
  | cons hsays _ ih => rw [List.foldl_cons, ih, hsays, List.foldl_cons]

/-- A column of parts as it is written. -/
def columnText (n : Name) (type : ColumnType) (as : List α) : List Char :=
  n.sql.toList ++ [' '] ++ type.sql.toList ++ as.flatMap fun a => ' ' :: P.text a

theorem takes_column (n : Name) (type : ColumnType) (as : List α) (before : List Char)
    {gap rest : List Char} (h : AfterItem gap rest) :
    ∃ t, Takes Ddl.columnDef before (P.columnText n type as ++ gap) rest [t]
      ∧ t.rule = .columnDef
      ∧ (ColumnOutline.ofTree t).fill (before ++ (P.columnText n type as ++ (gap ++ rest)))
        = as.foldl (fun column a => P.add a column)
          { name := n.text, declaredType := type.keyword } := by
  obtain ⟨us, lead, body, hbody, hfollows, hchain, hsays⟩ :=
    chain_blanks P.Says P.takes P.ne_nil P.afterPart_blank h.afterPart h.settled
      (fun before => Clause.columnAttr_eq_none before h.heads h.settled) as
      (before ++ (n.sql.toList ++ [' ']) ++ type.sql.toList)
  have hattrs : Takes (.many Ddl.columnAttr)
      (before ++ (n.sql.toList ++ [' ']) ++ (type.sql.toList ++ lead)) body rest us := by
    simpa [Takes] using hchain.many
  obtain ⟨typeTree, htype, stop, args, rfl⟩ :=
    type.takes (before ++ (n.sql.toList ++ [' '])) hfollows
  -- The blank before the first part goes to the type, and `gap` to the last part.
  have hletter : Settled (type.sql.toList ++ lead ++ (body ++ rest)) := by
    obtain ⟨d, ds, hd, hletter, -⟩ := type.keyword_shape
    rw [ColumnType.sql, String.toList_append, hd]
    exact settled_of_isIdentChar _ (by simp [Scan.isIdentChar, Char.isAlphanum, hletter])
  have hname := n.takes before (Parted.blank hletter)
  obtain ⟨last, hcolumn⟩ := (hname.seq_of_eq (htype.seq hattrs) (by simp) rfl).phrase .columnDef
  have hpiece : P.columnText n type as ++ gap
      = n.sql.toList ++ [' '] ++ (type.sql.toList ++ lead ++ body) := by
    rw [columnText, List.append_assoc, hbody]
    simp
  have hwhole : before ++ (P.columnText n type as ++ (gap ++ rest))
      = before ++ (n.sql.toList ++ [' ']) ++ type.sql.toList ++ (lead ++ body ++ rest) := by
    rw [← List.append_assoc (P.columnText n type as), hpiece]
    simp
  rw [hpiece]
  refine ⟨_, hcolumn, rfl, ?_⟩
  rw [hwhole, ofTree_columnDef, P.fill_foldl hsays]
  congr 1
  have hnameAt := n.nameAt before ([' '] ++ (type.sql.toList ++ (lead ++ body ++ rest)))
  have hslice := Span.slice_part (before ++ (n.sql.toList ++ [' '])) type.keyword.toList
    (type.detail.toList ++ (lead ++ body ++ rest))
  obtain ⟨d, ds, hd, -, -, hraise⟩ := type.keyword_shape
  rw [← hd] at hraise
  simp only [ColumnType.sql, String.toList_append, List.append_assoc] at hnameAt hslice ⊢
  simp only [ColumnOutline.fill, Option.map_some, Option.getD_some, hnameAt, hslice, hraise,
    String.ofList_toList]
  rfl

end Parts

/-- Clauses are parts. -/
def Clause.asParts : Parts Clause where
  text clause := clause.sql.toList
  add := Clause.addTo
  takes clause before _ _ h := clause.takes_columnAttr before h
  ne_nil := Clause.sql_ne_nil
  afterPart_blank := Clause.afterPart_blank

theorem ColumnDef.takes (c : ColumnDef) (before : List Char) {gap rest : List Char}
    (h : AfterItem gap rest) :
    ∃ t, Takes Ddl.columnDef before (c.sql.toList ++ gap) rest [t]
      ∧ Says (before ++ (c.sql.toList ++ (gap ++ rest))) c t := by
  have htext : c.sql.toList = Clause.asParts.columnText c.name c.type c.clauses := c.toList_sql
  obtain ⟨t, ht, hrule, hfill⟩ := Clause.asParts.takes_column c.name c.type c.clauses before h
  rw [htext]
  exact ⟨t, ht, hrule, hfill.trans c.foldl_addTo⟩

/-! ## Comments of any value among the clauses -/

namespace Part

/-- The column after one more part. -/
def addTo : Part → Column → Column
  | .inl clause, c => clause.addTo c
  | .inr remark, c => { c with comment := some remark.value }

theorem heads_remark (r : Remark) (rest : List Char) :
    Heads ["COMMENT"] ("COMMENT ".toList ++ r.sql.toList ++ rest) :=
  ⟨"COMMENT", by simp, ' ' :: (r.sql.toList ++ rest), by simp, by simp [EndsWord]; decide⟩

theorem takes_columnAttr (part : Part) (before : List Char) {gap rest : List Char}
    (h : AfterPart gap rest) :
    ∃ t, Takes Ddl.columnAttr before (part.sql.toList ++ gap) rest [t]
      ∧ ∀ o : ColumnOutline, (o.add t).fill (before ++ (part.sql.toList ++ (gap ++ rest)))
        = part.addTo (o.fill (before ++ (part.sql.toList ++ (gap ++ rest)))) := by
  cases part with
  | inl clause => exact clause.takes_columnAttr before h
  | inr remark =>
    have htext : Part.sql (.inr remark) = "COMMENT " ++ remark.sql := rfl
    obtain ⟨t, ⟨stop, hstop, hd⟩, hsays⟩ := remark.takes_commentAttr before h
    rw [htext, String.toList_append]
    -- which phrase takes a clause is known from its first word, so any comment stands for this one
    refine ⟨t, ⟨stop, Clause.found_columnAttr (.comment ⟨"", by simp⟩) before ?_ hstop, hd⟩, hsays⟩
    rw [List.append_assoc]
    exact heads_remark remark (gap ++ rest)

theorem afterPart_blank (part : Part) (gap rest : List Char) (h : AfterPart gap rest) :
    AfterPart [' '] (part.sql.toList ++ (gap ++ rest)) := by
  cases part with
  | inl clause => exact clause.afterPart_blank gap rest h
  | inr remark =>
    have hheads := heads_remark remark (gap ++ rest)
    have htext : (Part.sql (.inr remark)).toList = "COMMENT ".toList ++ remark.sql.toList := by
      simp [Part.sql]
    rw [htext]
    exact ⟨.blank (hheads.settled (by decide)), hheads.mono (by decide), by simp⟩

/-- Clauses with comments of any value among them. -/
def asParts : Parts Part where
  text part := part.sql.toList
  add := addTo
  takes part before _ _ h := part.takes_columnAttr before h
  ne_nil part := by
    cases part with
    | inl clause => exact clause.sql_ne_nil
    | inr remark => simp [Part.sql]
  afterPart_blank := afterPart_blank

end Part

namespace RemarkedColumn

theorem column_concat (name : Name) (type : ColumnType) (parts : List Part) (part : Part) :
    column ⟨name, type, parts ++ [part]⟩ = part.addTo (column ⟨name, type, parts⟩) := by
  cases part with
  | inl clause =>
    have hplain : plain ⟨name, type, parts ++ [.inl clause]⟩
        = ⟨name, type, parts.filterMap Sum.getLeft? ++ [clause]⟩ := by
      simp [plain, List.filterMap_append]
    rw [column, hplain, ColumnDef.column_concat]
    cases clause <;>
      simp [Part.addTo, Clause.addTo, column, plain, Part.comment?, Clause.comment?,
        List.filterMap_append]
  | inr remark =>
    have hplain : plain ⟨name, type, parts ++ [.inr remark]⟩ = plain ⟨name, type, parts⟩ := by
      simp [plain, List.filterMap_append]
    rw [column, hplain]
    simp [Part.addTo, column, Part.comment?, List.filterMap_append]

theorem foldl_addTo (c : RemarkedColumn) :
    c.parts.foldl (fun column part => part.addTo column)
      { name := c.name.text, declaredType := c.type.keyword } = c.column := by
  obtain ⟨name, type, parts⟩ := c
  induction parts using List.reverseRecOn with
  | nil => simp [column, plain, ColumnDef.column, ColumnDef.default?]
  | append_singleton parts part ih =>
    rw [List.foldl_append, ih]
    exact (column_concat name type parts part).symm

theorem toList_sql (c : RemarkedColumn) :
    c.sql.toList = Part.asParts.columnText c.name c.type c.parts := by
  simp [sql, Parts.columnText, Part.asParts, toList_concat, List.flatMap_map]

theorem takes (c : RemarkedColumn) (before : List Char) {gap rest : List Char}
    (h : AfterItem gap rest) :
    ∃ t, Takes Ddl.columnDef before (c.sql.toList ++ gap) rest [t] ∧ t.rule = .columnDef
      ∧ (ColumnOutline.ofTree t).fill (before ++ (c.sql.toList ++ (gap ++ rest))) = c.column := by
  rw [c.toList_sql, ← c.foldl_addTo]
  exact Part.asParts.takes_column c.name c.type c.parts before h

end RemarkedColumn

end GoScaffold.Declaration
