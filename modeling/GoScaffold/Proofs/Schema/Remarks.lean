import GoScaffold.Proofs.Schema.Accounted
import GoScaffold.Proofs.Schema.Printed.Table

set_option autoImplicit false

/-! # Comments are kept as they are meant

A comment is written as a string literal, recognised on a copy of the text in capitals and decoded from
the text itself. For every value and both quotes the recogniser stops at the closing quote and the
decoder gives the value back, so that the comments of tables and columns are what was meant. -/

namespace GoScaffold

open Text

open Grammar (Tree Rule)

/-! ## Of several clauses the last counts -/

/-- The last tree right below the root that has the rule. -/
def Grammar.Tree.lastChild? (t : Tree) (r : Rule) : Option Tree :=
  (t.children.filter (·.rule == r)).getLast?

theorem ColumnOutline.comment_add (o : ColumnOutline) (part : Tree) :
    (o.add part).comment
      = if part.rule = .commentAttr then partSpan? part .stringLiteral else o.comment := by
  unfold add
  cases hr : part.rule with
  | defaultClause => cases part.child? .defaultValue <;> rfl
  | identifier =>
    simp only
    split <;> rfl
  | _ => rfl

theorem Outline.comment_add (o : Outline) (part : Tree) :
    (o.add part).comment
      = if part.rule = .tableComment then partSpan? part .stringLiteral else o.comment := by
  unfold add
  cases hr : part.rule <;> rfl

/-- How the string literal in the last clause under the rule right below the tree is spelled. -/
def lastLiteral? (text : List Char) (t : Tree) (r : Rule) : Option (List Char) :=
  (t.lastChild? r).bind fun clause => (partSpan? clause .stringLiteral).map (·.slice text)

variable {q : Char} {text : List Char} {tree : Tree}

theorem stringAt_of_slice {span : Span} (hq : q = '\'' ∨ q = '"') {v : String}
    (h : span.slice text = Sql.literal q v.toList) : stringAt text span = v := by
  rw [stringAt, h, Sql.unquoteString_literal hq, String.ofList_toList]

theorem exists_span_of_lastLiteral? {σ : Type} {add : σ → Tree → σ} {f : σ → Option Span} {r : Rule}
    {literal : List Char} (h : lastLiteral? text tree r = some literal)
    (hf : ∀ o part, f (add o part) = if part.rule = r then partSpan? part .stringLiteral else f o)
    (o : σ) : ∃ span, f (tree.children.foldl add o) = some span ∧ span.slice text = literal := by
  obtain ⟨clause, hlast, hclause⟩ := Option.bind_eq_some_iff.1 h
  obtain ⟨span, hspan, hslice⟩ := Option.map_eq_some_iff.1 hclause
  refine ⟨span, ?_, hslice⟩
  rw [foldl_last f (fun part _ o => hf o part), ← Tree.lastChild?, hlast]
  exact hspan

theorem ColumnOutline.comment_fill (hq : q = '\'' ∨ q = '"') {v : String}
    (h : lastLiteral? text tree .commentAttr = some (Sql.literal q v.toList)) :
    ((ofTree tree).fill text).comment = some v := by
  obtain ⟨span, hspan, hslice⟩ := exists_span_of_lastLiteral? h comment_add {}
  rw [fill, ofTree, hspan, Option.map_some, stringAt_of_slice hq hslice]

theorem Outline.comment_fill (hq : q = '\'' ∨ q = '"') {v : String}
    (h : lastLiteral? text tree .tableComment = some (Sql.literal q v.toList)) :
    ((ofTree tree).fill text).1.comment = some v := by
  obtain ⟨span, hspan, hslice⟩ := exists_span_of_lastLiteral? h comment_add {}
  rw [fill, fillKeys_table, Table.addKeyGroups_eq, ofTree]
  simp only [hspan, Option.map_some, stringAt_of_slice hq hslice]

/-! ## Declarations as they are written -/

namespace Declaration

theorem RemarkedColumn.comment_column {c : RemarkedColumn} {front back : List Part} {r : Remark}
    (hparts : c.parts = front ++ .inr r :: back) (hback : ∀ part ∈ back, part.comment? = none) :
    c.column.comment = some r.value := by
  have hnone : back.filterMap Part.comment? = [] := List.filterMap_eq_nil_iff.2 hback
  simp [column, hparts, List.filterMap_append, Part.comment?, hnone]

end Declaration

open Declaration

/-! ## Comments of any value -/

/-- A literal that spells a value is recognised to its closing quote, decodes to the value, and as the
comment of a column or of a table is stored as the value. -/
theorem comment_kept (hq : q = '\'' ∨ q = '"') (v : String) :
    (∀ rest : List Char, rest.head? ≠ some q →
      Grammar.Scan.stringLiteral (raise (Sql.literal q v.toList) ++ rest)
        = some (raise (Sql.literal q v.toList), rest))
    ∧ Sql.unquoteString (Sql.literal q v.toList) = v.toList
    -- a declaration that is written with such comments parses, and they are stored
    ∧ (∀ d : RemarkedTable, ∃ t, parseTable d.sql = .ok (some t)
      ∧ List.Forall₂ (fun written (c : Column) => ∀ front back : List Part,
          written.parts = front ++ .inr ⟨q, hq, v⟩ :: back → (∀ part ∈ back, part.comment? = none) →
            c.comment = some v) d.columns t.columns
      ∧ (d.remark = some ⟨q, hq, v⟩ → t.comment = some v))
    -- and so they are in any declaration that parses
    ∧ ∀ s t warnings tree, readTable s = .ok (some (t, warnings)) →
        declarationTree s.toList = .ok (some tree) →
        List.Forall₂ (fun column (c : Column) =>
            lastLiteral? s.toList column .commentAttr = some (Sql.literal q v.toList) →
              c.comment = some v)
          (tree.children.filter (·.rule == .columnDef)) t.columns
        ∧ (lastLiteral? s.toList tree .tableComment = some (Sql.literal q v.toList) →
            t.comment = some v) := by
  have halpha : q.isAlpha = false := by rcases hq with rfl | rfl <;> decide
  refine ⟨fun rest hrest => ?_, Sql.unquoteString_literal hq _, fun d => ?_, ?_⟩
  · rw [Grammar.Expr.raise_literal halpha]
    exact Grammar.Scan.stringLiteral_literal hq _ hrest
  · refine ⟨d.table, d.parse_sql, ?_, fun hremark => ?_⟩
    · show List.Forall₂ _ d.columns (d.columns.map (·.column))
      rw [List.forall₂_map_right_iff, List.forall₂_same]
      exact fun c _ front back hparts hback => RemarkedColumn.comment_column hparts hback
    · simp [RemarkedTable.table, hremark]
  · intro s t warnings tree hread htree
    obtain ⟨other, keys, hother, -, -, rfl, -⟩ := exists_outline hread
    obtain rfl : other = tree := Option.some.inj (Except.ok.inj (hother.symm.trans htree))
    refine ⟨?_, Outline.comment_fill hq⟩
    rw [Outline.columns_fill_ofTree, List.forall₂_map_right_iff, List.forall₂_same]
    exact fun column _ => ColumnOutline.comment_fill hq

/-- A value that is all quotes and backslashes. -/
def spiky : String := "\"\"\\'\"\\"

/-- A column and a table with that comment in double quotes, another comment and a clause before it. -/
def spikyTable : RemarkedTable where
  plain :=
    { name := ⟨"t", by decide⟩
      columns := [⟨⟨"a", by decide⟩, .int, [.comment ⟨"x", by decide⟩, .notNull]⟩]
      keys := []
      comment := none
      nonempty := by simp
      distinct := by decide }
  columns := [⟨⟨"a", by decide⟩, .int,
    [.inl (.comment ⟨"x", by decide⟩), .inl .notNull, .inr ⟨'"', .inr rfl, spiky⟩]⟩]
  columns_eq := rfl
  remark := some ⟨'"', .inr rfl, spiky⟩

/-- A declaration in another hand that has it too. -/
def spikyText : String :=
  "create table T(a Int comment'x' COMMENT\"\"\"\"\"\\\\'\"\"\\\\\")comment \"\", Comment\n= \"\"\"\"\"\\\\'\"\"\\\\\""

theorem comment_kept_spiky :
    ('"' = '\'' ∨ '"' = '"')
    ∧ Grammar.Scan.stringLiteral (raise (Sql.literal '"' spiky.toList) ++ [')'])
        = some (raise (Sql.literal '"' spiky.toList), [')'])
    ∧ Sql.unquoteString (Sql.literal '"' spiky.toList) = spiky.toList
    ∧ (∃ t, parseTable spikyTable.sql = .ok (some t) ∧ t.columns.map (·.comment) = [some spiky]
      ∧ t.comment = some spiky)
    ∧ ∃ t, parseTable spikyText = .ok (some t) ∧ t.comment = some spiky := by
  obtain ⟨hscan, hdecode, hwritten, hread⟩ := comment_kept (q := '"') (.inr rfl) spiky
  refine ⟨.inr rfl, hscan [')'] (by decide), hdecode, ?_, ?_⟩
  · obtain ⟨t, hparse, hcolumns, htable⟩ := hwritten spikyTable
    refine ⟨t, hparse, ?_, htable rfl⟩
    obtain ⟨c, cs, hc, hcs, heq⟩ := List.forall₂_cons_left_iff.1 hcolumns
    have hcomment : c.comment = some spiky :=
      hc [.inl (.comment ⟨"x", by decide⟩), .inl .notNull] [] rfl (by simp)
    rw [heq, List.forall₂_nil_left_iff.1 hcs, List.map_singleton, hcomment]
  · obtain ⟨tree, htree, hliteral⟩ : ∃ tree, declarationTree spikyText.toList = .ok (some tree)
        ∧ lastLiteral? spikyText.toList tree .tableComment
          = some (Sql.literal '"' spiky.toList) := by
      have h : ((declarationTree spikyText.toList).toOption.bind id).bind
          (fun tree => lastLiteral? spikyText.toList tree .tableComment)
            = some (Sql.literal '"' spiky.toList) := by decide +kernel
      obtain ⟨tree, hsome, hliteral⟩ := Option.bind_eq_some_iff.1 h
      obtain ⟨found, hfound, rfl⟩ := Option.bind_eq_some_iff.1 hsome
      exact ⟨tree, eq_ok_of_toOption hfound, hliteral⟩
    have hdeclares : Sql.isTableDeclaration spikyText.toList = true := by decide +kernel
    have hok := readTable_eq_ok_some.2 ⟨hdeclares, tree, htree, rfl, rfl⟩
    refine ⟨_, ?_, (hread _ _ _ tree hok htree).2 hliteral⟩
    rw [parseTable, hok]
    rfl

end GoScaffold
