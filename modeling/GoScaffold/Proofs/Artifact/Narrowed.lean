import GoScaffold.Proofs.Artifact.Agreement
import GoScaffold.Proofs.Artifact.Alignment
import GoScaffold.Proofs.Artifact.Keys
import GoScaffold.Proofs.Go.Reporting

set_option autoImplicit false

/-! # No statement about a row is about all rows

Whatever key groups a table has, empty ones and places without columns among them, the functions
that find rows by a key have a key with columns. So each of their statements compares a column of the
table with a value, and the methods that go through gorm put a field into the condition
(`rows_narrowed`). -/

namespace GoScaffold

open Go Text

/-! ## What is sent -/

namespace Statement

/-- The statement is about the rows with a key only. -/
def FindsBy (key : List Column) : Statement → Prop
  | .update _ k | .select k | .delete k | .write _ _ k => k = key
  | .count condition | .page condition _ => condition = some key
  | .insert _ => False

theorem sql_of_findsBy (t : Table) (o : Options) {key : List Column} {s : Statement}
    (h : s.FindsBy key) :
    ∃ front back, (s.call t o).sql = front ++ " where " ++ keyCondition key ++ back := by
  have hend (front : String) : front = front ++ "" := String.append_empty.symm
  cases s with
  | insert columns => cases h
  | update sets k | select k | delete k =>
    cases h
    simp only [call_update, call_select, call_delete]
    exact ⟨_, "", hend _⟩
  | count condition =>
    cases h
    rw [call_count, conditionText]
    exact ⟨"select count(*) from " ++ Sql.backticked t.name, "",
      by simp only [String.append_empty, String.append_assoc]⟩
  | page condition order =>
    cases h
    rw [call_page, conditionText]
    exact ⟨"select " ++ Access.selectList t ++ " from " ++ Sql.backticked t.name,
      order.clause ++ " limit ?, ?", by simp only [String.append_assoc]⟩
  | write c sql k =>
    cases h
    rw [call_write, Accessor.markSql]
    exact ⟨_, "", hend _⟩

end Statement

theorem Accessor.findsBy_of_mem_plan {t : Table} {a : Accessor} {key : List Column}
    (hkey : a.key? = some key) {record : Option Supplied} {statements : List Statement}
    (h : a.plan t record = .ok statements) : ∀ s ∈ statements, s.FindsBy key := by
  cases record with
  | none => cases a <;> cases hkey <;> cases h
  | some supplied =>
    cases a with
    | create | list => cases hkey
    | update k =>
      cases hkey
      rw [plan] at h
      split at h
      · cases h
      · cases h
        exact List.forall_mem_singleton.2 rfl
    | get k | delete k | mark k c sql | restore k c sql =>
      cases hkey
      cases h
      exact List.forall_mem_singleton.2 rfl
    | listBy k order =>
      cases hkey
      cases h
      exact List.forall_mem_cons.2 ⟨rfl, List.forall_mem_singleton.2 rfl⟩

/-- Whatever the record, a function that finds rows by a key sends no statement without it. -/
theorem Accessor.sql_of_mem_calls {t : Table} {o : Options} {a : Accessor} {key : List Column}
    (hkey : a.key? = some key) {record : Option Supplied} {calls : List Call}
    (h : a.calls t o record = .ok calls) {call : Call} (hcall : call ∈ calls) :
    ∃ front back, call.sql = front ++ " where " ++ keyCondition key ++ back := by
  rw [calls_eq_plan] at h
  cases hplan : a.plan t record with
  | error refusal =>
    rw [hplan] at h
    cases h
  | ok statements =>
    rw [hplan] at h
    cases h
    obtain ⟨s, hs, rfl⟩ := List.mem_map.1 hcall
    exact Statement.sql_of_findsBy t o (findsBy_of_mem_plan hkey hplan s hs)

/-! ## What is written -/

/-- The line, if it gives the statement or the condition of a function its text. -/
def statement? (cs : List Char) : Option (List Char) :=
  if beginsWith ["query := ", "where := "] cs then some cs else none

theorem isSilent_statement? : IsSilent statement? :=
  isSilent_beginsWith (by decide) (by decide) (by decide) (by decide) (by decide) (by decide)

/-- Lines that begin with another letter give no statement its text. -/
theorem readLines_of_head {c : Code}
    (h : ∀ l ∈ c, l.text.toList.head? ≠ some 'q' ∧ l.text.toList.head? ≠ some 'w') :
    readLines statement? c = [] := by
  refine List.filterMap_eq_nil_iff.2 fun l hl => if_neg ?_
  intro hbegins
  obtain ⟨start, hstart, hprefix⟩ := List.any_eq_true.1 hbegins
  obtain ⟨rest, hrest⟩ := List.isPrefixOf_iff_prefix.1 hprefix
  have hline := h l hl
  rw [← hrest] at hline
  rcases List.mem_pair.1 hstart with rfl | rfl
  · exact hline.1 rfl
  · exact hline.2 rfl

theorem readLines_statementBlock {head : String} (h : statement? (head ++ " \x7b").toList = none)
    (body : Code) : readLines statement? (block head body) = readLines statement? body := by
  rw [readLines_block, h, isSilent_statement?.onClose]
  exact List.append_nil _

theorem readLines_supply (s : Supply) : readLines statement? s.code = [] :=
  readLines_of_head (by
    cases hinto : s.into <;>
      simp [Supply.code, hinto, Gathered.variable, block, enclosed, indent, line, Go.lines])

/-- The text that a step gives the statement or the condition, as a line. -/
def Step.statementLine? (model : String) : Step → Option String
  | .query parts => some ("query := " ++ join " + " (parts.map (QueryPart.text model)))
  | .whereFixed clause => some ("where := " ++ quote clause)
  | .whereGathered => some "where := \"\""
  | _ => none

/-- What is read off the code of a step is its text of the statement or the condition. -/
theorem Step.readLines_code (model : String) (c : Convention) (zeros : List String) (s : Step) :
    readLines statement? (s.code model c zeros)
      = ((s.statementLine? model).map String.toList).toList := by
  have hsilent := isSilent_statement?
  cases s with
  | rejectNil =>
    rw [code, readLines_statementBlock (by decide), Convention.readLines_fail hsilent]
    rfl
  | startColumns | startValues | startNoValues | addValues =>
    exact readLines_of_head (by simp [code, line])
  | startGathering g room =>
    exact readLines_of_head (by cases g <;> simp [code, line, Gathered.variable])
  | supply s => exact readLines_supply s
  | supplyFromRecord supplies =>
    rw [code, readLines_statementBlock (by decide), readLines_flatMap]
    exact List.flatMap_eq_nil_iff.2 fun s _ => readLines_supply s
  | rejectNoSets =>
    rw [code, readLines_statementBlock (by decide), Convention.readLines_fail hsilent]
    rfl
  | query parts =>
    rw [code, readLines_line, statement?, beginsWith_start (by simp), if_pos rfl]
    rfl
  | whereFixed clause =>
    rw [code, readLines_line, statement?, beginsWith_start (by simp), if_pos rfl]
    rfl
  | whereGathered =>
    have hgathered : readLines statement? (line "where := \"\""
        ++ block "if len(conditions) > 0"
          (line "where = \" where \" + strings.Join(conditions, \" and \")"))
        = ["where := \"\"".toList] := by decide
    exact hgathered
  | insert =>
    have hexec : readLines statement? (line "result, err := db.Exec(query, args...)") = [] := by decide
    rw [code, readLines_append, readLines_append, Convention.readLines_check hsilent,
      Convention.readLines_forward hsilent _ (by decide), hexec]
    rfl
  | execute => exact Convention.readLines_forward hsilent c (by decide) _
  | executeWith values => exact Convention.readLines_forward hsilent c (by decide) _
  | fetch values =>
    have hscan : readLines statement? (line ("m, err := scan" ++ model ++ "(db.QueryRow(query, "
        ++ Bound.arguments values ++ "))")) = [] := readLines_of_head (by simp [line])
    rw [code, readLines_append, readLines_append, readLines_append, hscan,
      Convention.readLines_check hsilent, Convention.readLines_succeed hsilent _ (by decide),
      readLines_statementBlock (by decide), Convention.readLines_succeed hsilent _ (by decide)]
    rfl
  | fetchPage order => exact Convention.readLines_forward hsilent c (by decide) _

/-- The text ends with the condition that the columns of a key have some values. -/
def EndsWithKey (key : List Column) (text : String) : Prop :=
  ∃ before sql, text = before ++ quote (sql ++ " where " ++ keyCondition key)

theorem endsWithKey_query (model : String) (parts : List QueryPart) (sql : String)
    (key : List Column) :
    EndsWithKey key ("query := " ++ join " + "
      ((parts ++ [QueryPart.fixed (sql ++ " where " ++ keyCondition key)]).map (QueryPart.text model))) := by
  refine ⟨"query := " ++ concat ((parts.map (QueryPart.text model)).map (· ++ " + ")), sql, ?_⟩
  rw [List.map_append, List.map_cons, List.map_nil, join_concat, ← String.append_assoc]
  rfl

/-- The text begins an insert. -/
def BeginsInsert (text : String) : Prop := "query := \"insert into ".toList <+: text.toList

theorem beginsInsert_query (model table : String) (parts : List QueryPart) :
    BeginsInsert ("query := " ++ join " + "
      ((QueryPart.fixed ("insert into " ++ table) :: parts).map (QueryPart.text model))) := by
  obtain ⟨more, hmore⟩ : ∃ more, join " + "
      ((QueryPart.fixed ("insert into " ++ table) :: parts).map (QueryPart.text model))
        = quote ("insert into " ++ table) ++ more := by
    cases parts with
    | nil => exact ⟨"", String.append_empty.symm⟩
    | cons part parts => exact ⟨" + " ++ join " + " ((part :: parts).map (QueryPart.text model)),
        String.append_assoc⟩
  have hescape : "insert into ".toList.flatMap escape = "insert into ".toList := by decide
  refine ⟨table.toList.flatMap escape ++ '"' :: more.toList, ?_⟩
  rw [hmore, String.toList_append, String.toList_append, quote, toList_onChars, quoteChars,
    String.toList_append, List.flatMap_append, hescape]
  simp

namespace Accessor

/-- A function gives the statement or the condition its text once: with its key, if it has one. -/
theorem exists_statementLine (t : Table) (o : Options) (model : String) (a : Accessor) :
    ∃ text, (a.steps t o).filterMap (Step.statementLine? model) = [text]
      ∧ match a.key? with
        | some key => EndsWithKey key text
        | none => BeginsInsert text ∨ text = "where := \"\"" := by
  have hsupplies (g : Gathered) (item : Column → String) (columns : List Column) :
      ((supplies o g item columns).map Step.supply).filterMap (Step.statementLine? model) = [] := by
    rw [List.filterMap_map]
    exact List.filterMap_eq_nil_iff.2 fun _ _ => rfl
  have hfixed (key : List Column) (sql : String) :
      EndsWithKey key ("query := " ++ join " + "
        ([QueryPart.fixed (sql ++ " where " ++ keyCondition key)].map (QueryPart.text model))) :=
    endsWithKey_query model [] sql key
  cases a with
  | create =>
    have hinsert := beginsInsert_query model (Sql.backticked t.name ++ " (")
      [.gathered .columns, .fixed ") values (", .placeholders, .fixed ")"]
    rw [← String.append_assoc] at hinsert
    refine ⟨_, ?_, .inl hinsert⟩
    rw [steps, List.partition_eq_filter_filter, List.filterMap_append, List.filterMap_append,
      hsupplies]
    rfl
  | update key =>
    have hkey := endsWithKey_query model
      [.fixed ("update " ++ Sql.backticked t.name ++ " set "), .gathered .sets] "" key
    rw [String.empty_append] at hkey
    refine ⟨_, ?_, hkey⟩
    rw [steps, List.filterMap_append, List.filterMap_append, hsupplies]
    rfl
  | get key =>
    exact ⟨_, rfl, endsWithKey_query model [.fixed "select ", .allColumns]
      (" from " ++ Sql.backticked t.name) key⟩
  | listBy key order => exact ⟨_, rfl, "where := ", "", by rw [String.empty_append]⟩
  | list order => exact ⟨_, rfl, .inr rfl⟩
  | delete key => exact ⟨_, rfl, hfixed key ("delete from " ++ Sql.backticked t.name)⟩
  | mark key c literal | restore key c literal =>
    exact ⟨_, rfl, hfixed key ("update " ++ Sql.backticked t.name ++ " set " ++ Sql.backticked c.name
      ++ " = " ++ literal)⟩

theorem readLines_body (t : Table) (o : Options) (a : Accessor) :
    readLines statement? (Access.accessorFunction t o a).body
      = ((a.steps t o).filterMap (Step.statementLine? t.modelName)).map String.toList := by
  have hbody : (Access.accessorFunction t o a).body
      = indent ((a.steps t o).flatMap (Step.code t.modelName o.convention a.zeros)) := rfl
  rw [hbody, readLines_indent, readLines_flatMap, List.map_filterMap, List.filterMap_eq_flatMap_toList]
  simp only [Step.readLines_code]

end Accessor

/-! ## The whole file -/

namespace Access

theorem readLines_heading (title : String) : readLines statement? (heading title) = [] :=
  readLines_of_head (by simp [heading, line, gap])

theorem readLines_columnsCode (t : Table) : readLines statement? (columnsCode t) = [] :=
  readLines_of_head (by simp [columnsCode, line, gap])

theorem readLines_scanCode (t : Table) : readLines statement? (scanCode t) = [] :=
  readLines_of_head (by simp [scanCode, declaration, block, enclosed, indent, line, gap])

theorem readLines_pageCode (t : Table) : readLines statement? (pageCode t) = [] :=
  readLines_of_head (by simp [pageCode, declaration, block, enclosed, indent, line, gap])

theorem readLines_code (t : Table) (o : Options) (a : Accessor) :
    readLines statement? (a.code t o) = readLines statement? (accessorFunction t o a).body := by
  have hcomment : readLines statement? (line ("// " ++ a.summary t.modelName)) = [] :=
    readLines_of_head (by simp [line])
  have hhead : statement? (a.head t.modelName o.convention ++ " \x7b").toList = none := by
    have hfront : (a.head t.modelName o.convention ++ " \x7b").toList
        = "func ".toList ++ (a.name t.modelName ++ "(db DataSource, s *" ++ t.modelName
          ++ (if a.isPaged then ", page int, size int)" else ")")
          ++ o.convention.results (a.resultTypes t.modelName) ++ " \x7b").toList := by
      simp [Accessor.head]
    rw [hfront, statement?, beginsWith_append (by decide)]
    rfl
  have hgap : readLines statement? gap = [] := by decide
  have hbody : (accessorFunction t o a).body
      = indent ((a.steps t o).flatMap (Step.code t.modelName o.convention a.zeros)) := rfl
  unfold Accessor.code
  simp only
  rw [readLines_append, hcomment, declaration, readLines_append, readLines_statementBlock hhead, hgap,
    hbody, readLines_indent]
  simp

theorem readLines_preamble (c : Convention) (rounds : Bool) :
    readLines statement? (preamble c rounds) = [] :=
  readLines_of_head (by
    cases c <;> cases rounds <;>
      simp [preamble, sharedCode, truncateCode, Convention.assertHelper, declaration, block, enclosed,
        indent, line, Go.lines, gap])

/-- What the file spells is what its accessors spell. -/
theorem readLines_file (tables : List Table) (o : Options) (today : String) :
    readLines statement? (file tables o today).body
      = tables.flatMap fun t => (Accessor.ofTable t o).flatMap fun a =>
          readLines statement? (accessorFunction t o a).body := by
  have htable (t : Table) : readLines statement? (tableCode t o)
      = (Accessor.ofTable t o).flatMap fun a => readLines statement? (accessorFunction t o a).body := by
    rw [tableCode, readLines_append, readLines_append, readLines_append, readLines_append,
      readLines_heading, readLines_columnsCode, readLines_scanCode, readLines_pageCode,
      readLines_flatMap]
    simp only [readLines_code, List.nil_append]
  rw [body_file, readLines_append, readLines_preamble, readLines_flatMap]
  simp only [htable, List.nil_append]

end Access

/-! ## Methods through gorm -/

namespace Service

/-- What a line asks of gorm. -/
def gormCall? (cs : List Char) : Option (List Char) :=
  dropPrefix? "err := p.DB.".toList cs <|> dropPrefix? "return p.DB.".toList cs
    <|> dropPrefix? "assertErrorNil(p.DB.".toList cs

theorem gormCall?_eq_none {cs : List Char}
    (h : beginsWith ["err := p.DB.", "return p.DB.", "assertErrorNil(p.DB."] cs = false) :
    gormCall? cs = none := by
  rw [gormCall?, dropPrefix?_of_beginsWith h (by simp), dropPrefix?_of_beginsWith h (by simp),
    dropPrefix?_of_beginsWith h (by simp)]
  rfl

/-- The text puts the fields of a key, and nothing else, into a condition of gorm. -/
def HasKeyRecord (t : Table) (o : Options) (key : List Column) (cs : List Char) : Prop :=
  ∃ before after, cs = (before ++ "Where(&" ++ composite (recordType t o)
    (join ", " (key.map fun c => c.fieldName ++ ": s." ++ c.fieldName)) ++ ")" ++ after).toList

theorem keyRecord_eq {t : Table} (o : Options) {key : List Column} (h : t.keys.primary = some key) :
    keyRecord t o = "&" ++ composite (recordType t o)
      (join ", " (key.map fun c => c.fieldName ++ ": s." ++ c.fieldName)) := by
  have hentry (c : Column) : c.fieldName ++ ": " ++ c.ofRecord = c.fieldName ++ ": s." ++ c.fieldName := by
    simp [Column.ofRecord, ← String.toList_inj]
  rw [keyRecord, primaryKey, h]
  simp only [Option.getD_some, hentry]

/-- The method that gets a row asks gorm once, for the row with the key. -/
theorem readLines_get (t : Table) (o : Options) :
    readLines gormCall? (ormBody t o .get) = [("Where(" ++ keyRecord t o ++ ").Take(m).Error").toList] := by
  have hrecord : gormCall? ("m := &" ++ composite (recordType t o) "").toList = none := by
    rw [String.toList_append]
    exact gormCall?_eq_none (beginsWith_append (by decide) _)
  have hask : gormCall? ("err := p.DB.Where(" ++ keyRecord t o ++ ").Take(m).Error").toList
      = some ("Where(" ++ keyRecord t o ++ ").Take(m).Error").toList := by
    have hsplit : ("err := p.DB.Where(" ++ keyRecord t o ++ ").Take(m).Error").toList
        = "err := p.DB.".toList ++ ("Where(" ++ keyRecord t o ++ ").Take(m).Error").toList := by
      simp
    rw [gormCall?, dropPrefix?_eq_some.2 hsplit]
    rfl
  have hrest : readLines gormCall? (block "if errors.Is(err, gorm.ErrRecordNotFound)"
      (o.convention.succeed ["nil"]) ++ o.convention.check ["nil"] ++ o.convention.succeed ["m"]) = [] := by
    cases o.convention <;> decide
  have hbody : ormBody t o .get = line ("m := &" ++ composite (recordType t o) "")
      ++ (line ("err := p.DB.Where(" ++ keyRecord t o ++ ").Take(m).Error")
      ++ (block "if errors.Is(err, gorm.ErrRecordNotFound)" (o.convention.succeed ["nil"])
        ++ o.convention.check ["nil"] ++ o.convention.succeed ["m"])) := rfl
  rw [hbody, readLines_append, readLines_append, readLines_line, readLines_line, hrecord, hask, hrest]
  rfl

/-- The method that deletes a row asks gorm once, about the rows with the key. -/
theorem readLines_delete (t : Table) (o : Options) :
    ∃ before after, readLines gormCall? (ormBody t o .delete)
      = [(before ++ "Where(" ++ keyRecord t o ++ ")" ++ after).toList] := by
  -- Whether the row is removed or marked, the condition stands in one chain of calls.
  obtain ⟨before, after, hcall⟩ : ∃ before after,
      ormDeleteCall t o = "p.DB." ++ (before ++ "Where(" ++ keyRecord t o ++ ")" ++ after) := by
    unfold ormDeleteCall
    cases markColumn? t o.logicalDelete with
    | none =>
      refine ⟨"", ".Delete(&" ++ composite (recordType t o) "" ++ ").Error", ?_⟩
      simp [← String.toList_inj]
    | some mark =>
      obtain ⟨c, d⟩ := mark
      refine ⟨"Model(&" ++ composite (recordType t o) "" ++ ").",
        ".Update(" ++ quote c.name ++ ", " ++ goLiteral (d.deleteLiteral c) ++ ").Error", ?_⟩
      simp [← String.toList_inj]
  have hnone {start front : String} (h : ruledOut [start] front.toList = true) (rest : List Char) :
      dropPrefix? start.toList (front.toList ++ rest) = none :=
    dropPrefix?_of_beginsWith (beginsWith_append h rest) (List.mem_singleton_self start)
  have hbody : ormBody t o .delete = o.convention.forward [] (ormDeleteCall t o) := rfl
  rw [hbody, hcall]
  cases o.convention with
  | returned =>
    refine ⟨before, after, ?_⟩
    have hsplit : ("return " ++ ("p.DB." ++ (before ++ "Where(" ++ keyRecord t o ++ ")" ++ after))).toList
        = "return p.DB.".toList ++ (before ++ "Where(" ++ keyRecord t o ++ ")" ++ after).toList := by
      simp
    rw [Convention.forward, readLines_line, gormCall?, hsplit, hnone (by decide),
      dropPrefix?_eq_some.2 rfl]
    rfl
  | panicking =>
    refine ⟨before, after ++ ")", ?_⟩
    have hsplit : ("assertErrorNil(" ++ ("p.DB." ++ (before ++ "Where(" ++ keyRecord t o ++ ")" ++ after))
          ++ ")").toList
        = "assertErrorNil(p.DB.".toList
          ++ (before ++ "Where(" ++ keyRecord t o ++ ")" ++ (after ++ ")")).toList := by
      simp
    rw [Convention.forward, readLines_line, gormCall?, hsplit, hnone (by decide), hnone (by decide),
      dropPrefix?_eq_some.2 rfl]
    rfl

/-- A method that finds a row through gorm asks once, with the fields of the primary group. -/
theorem hasKeyRecord_of_mem_ofTable {t : Table} {o : Options} (hstyle : o.style = .orm)
    {op : Operation} (hop : op ∈ Operation.ofTable t) (hrow : op = .get ∨ op = .delete) :
    ∃ key cs, t.IsKey key ∧ readLines gormCall? (methodBody t o op) = [cs] ∧ HasKeyRecord t o key cs := by
  have hprimary : t.keys.primary = some (primaryKey t) := by
    refine primary_of_mem_ofTable hop ?_ ?_ <;> rcases hrow with rfl | rfl <;> decide
  have hkey := Table.isKey_of_mem_unique (mem_unique_of_primary hprimary)
  have hbody : methodBody t o op = ormBody t o op := by
    rw [methodBody, hstyle]
  rw [hbody]
  rcases hrow with rfl | rfl
  · refine ⟨_, _, hkey, readLines_get t o, "", ".Take(m).Error", ?_⟩
    rw [keyRecord_eq o hprimary]
    simp
  · obtain ⟨before, after, hread⟩ := readLines_delete t o
    refine ⟨_, _, hkey, hread, before, after, ?_⟩
    rw [keyRecord_eq o hprimary]
    simp

end Service

/-! ## Both files -/

/-- A key begins with a comparison of a column with a value. -/
theorem keyCondition_of_isKey {t : Table} {key : List Column} (h : t.IsKey key) :
    ∃ c ∈ t.columns, ∃ rest, keyCondition key = Sql.backticked c.name ++ " = ?" ++ rest := by
  cases key with
  | nil => exact absurd rfl h.ne_nil
  | cons c key =>
    refine ⟨c, h.subset c List.mem_cons_self, ?_⟩
    cases key with
    | nil => exact ⟨"", String.append_empty.symm⟩
    | cons d key => exact ⟨" and " ++ keyCondition (d :: key), String.append_assoc⟩

/-- Statements about rows of a table narrow to a key, in the text of the file of data access
functions, in what its functions send, and in what the service asks of gorm. -/
structure RowsNarrowed (tables : List Table) (o : Options) (today : String) : Prop where
  /-- A key compares a column of the table with a value. -/
  compares : ∀ t key, Table.IsKey t key →
    ∃ c ∈ t.columns, ∃ rest, keyCondition key = Sql.backticked c.name ++ " = ?" ++ rest
  /-- The functions that find rows by a group: each has a key, and its one text of a statement or
  condition ends with it. -/
  written : ∀ t ∈ tables, ∀ a ∈ Accessor.ofTable t o, ∀ key, a.key? = some key →
    t.IsKey key ∧ Access.accessorFunction t o a ∈ functions (Access.file tables o today).body
      ∧ ∃ text, readLines statement? (Access.accessorFunction t o a).body = [text.toList]
        ∧ EndsWithKey key text
  /-- Whatever the record, they send no statement without the key. -/
  sent : ∀ t ∈ tables, ∀ a ∈ Accessor.ofTable t o, ∀ key, a.key? = some key →
    ∀ record calls, a.calls t o record = .ok calls →
      ∀ call ∈ calls, ∃ front back, call.sql = front ++ " where " ++ keyCondition key ++ back
  /-- All other texts of the file begin an insert or the condition of a list of all rows. -/
  others : ∀ cs ∈ readLines statement? (Access.file tables o today).body,
    ∃ text, cs = text.toList ∧ (BeginsInsert text ∨ text = "where := \"\""
      ∨ ∃ t ∈ tables, ∃ key, t.IsKey key ∧ EndsWithKey key text)
  /-- The methods that get and delete a row through gorm ask once, with the fields of a key. -/
  asked : o.style = .orm → ∀ t ∈ tables, ∀ op ∈ Operation.ofTable t, op = .get ∨ op = .delete →
    (Service.signature t o op).declare (Service.methodBody t o op)
        ∈ functions (Service.file tables o today).body
      ∧ ∃ key cs, t.IsKey key ∧ readLines Service.gormCall? (Service.methodBody t o op) = [cs]
        ∧ Service.HasKeyRecord t o key cs

/-- No statement about a single row, or about the rows of an index, is about all rows. -/
theorem rows_narrowed (tables : List Table) (o : Options) (today : String) :
    RowsNarrowed tables o today where
  compares _ _ h := keyCondition_of_isKey h
  written t ht a ha key hkey := by
    have hfunction : Access.accessorFunction t o a ∈ functions (Access.file tables o today).body := by
      rw [Access.functions_file]
      refine List.mem_append_right _ (List.mem_flatMap.2 ⟨t, ht, ?_⟩)
      exact List.mem_append_right _ (List.mem_map_of_mem ha)
    obtain ⟨text, htext, hends⟩ := a.exists_statementLine t o t.modelName
    rw [hkey] at hends
    refine ⟨Accessor.isKey_of_mem_ofTable ha hkey, hfunction, text, ?_, hends⟩
    rw [Accessor.readLines_body, htext]
    rfl
  sent t _ a _ key hkey record calls hcalls call hcall :=
    Accessor.sql_of_mem_calls hkey hcalls hcall
  others cs hcs := by
    rw [Access.readLines_file] at hcs
    obtain ⟨t, ht, hcs⟩ := List.mem_flatMap.1 hcs
    obtain ⟨a, ha, hcs⟩ := List.mem_flatMap.1 hcs
    obtain ⟨text, htext, hends⟩ := a.exists_statementLine t o t.modelName
    rw [Accessor.readLines_body, htext] at hcs
    refine ⟨text, List.mem_singleton.1 hcs, ?_⟩
    cases hkey : a.key? with
    | none =>
      rw [hkey] at hends
      exact hends.imp_right .inl
    | some key =>
      rw [hkey] at hends
      exact .inr (.inr ⟨t, ht, key, Accessor.isKey_of_mem_ofTable ha hkey, hends⟩)
  asked hstyle t ht op hop hrow := by
    refine ⟨?_, Service.hasKeyRecord_of_mem_ofTable hstyle hop hrow⟩
    rw [Service.functions_file]
    refine List.mem_append_right _ (List.mem_flatMap.2 ⟨t, ht, ?_⟩)
    exact List.mem_map_of_mem hop

end GoScaffold
