import GoScaffold.Proofs.Grammar.Parenthesised
import GoScaffold.Proofs.Schema.Recased
import GoScaffold.Proofs.Schema.Remarks

set_option autoImplicit false

/-! # Defaults in parentheses

The grammar reads a default in parentheses up to the one that closes it and skips the strings inside.
What is stored is stripped of that pair if the rest is balanced character by character, strings included
(`default_stripped`). So it is if every string in it is balanced by itself; a single parenthesis in a
string keeps the pair. -/

namespace GoScaffold

open Text

open Grammar (Tree Rule Cursor IsLexeme Scan.stringsIn)

open Grammar.Expr (Yields found)

/-! ## Balanced texts -/

theorem balanced_cons_of_ne {c : Char} (depth : Nat) (cs : List Char) (hopen : c ≠ '(')
    (hclose : c ≠ ')') : balanced depth (c :: cs) = balanced depth cs := by
  rw [balanced.eq_def]
  simp only [if_neg hopen, if_neg hclose]

/-- A balanced text leaves the parentheses around it as they are. -/
theorem balanced_append {inner : Nat} {cs : List Char} (h : balanced inner cs = true) (depth : Nat)
    (rest : List Char) : balanced (depth + inner) (cs ++ rest) = balanced depth rest := by
  fun_induction balanced inner cs generalizing depth with
  | case1 inner =>
    have hinner : inner = 0 := by simpa using h
    rw [hinner]
    rfl
  | case2 inner cs ih =>
    exact ih h depth
  | case3 => cases h
  | case4 cs inner hopen ih =>
    exact ih h depth
  | case5 inner c cs hopen hclose ih =>
    rw [List.cons_append, balanced_cons_of_ne _ _ hopen hclose]
    exact ih h depth

/-! ## The end of the parentheses -/

/-- A character that does not close the parentheses stands before the one that does. -/
theorem exists_tail {pending depth : Nat} {c : Char} {cs ts after : List Char}
    (h : Grammar.behind c (Grammar.Scan.parenEnd pending depth ts) = some (cs ++ [')'], after))
    (htext : cs ++ ')' :: after = c :: ts) :
    ∃ ds, cs = c :: ds ∧ ts = ds ++ ')' :: after
      ∧ Grammar.Scan.parenEnd pending depth ts = some (ds ++ [')'], after) := by
  obtain ⟨v, hv, hw⟩ := Grammar.Scan.behind_eq_some.1 h
  cases cs with
  | nil => exact absurd (List.cons.inj hw).2.symm (Grammar.Scan.parenEnd_ne_nil hv)
  | cons d ds =>
    obtain ⟨rfl, rfl⟩ := List.cons.inj hw
    exact ⟨ds, rfl, (List.cons.inj htext).2.symm, hv⟩

/-- Where the strings that are skipped are balanced, the parentheses that are counted with them and
without them are closed at the same place. -/
theorem balanced_of_parenEnd {pending depth : Nat} {cs after : List Char}
    (h : Grammar.Scan.parenEnd pending depth (cs ++ ')' :: after) = some (cs ++ [')'], after))
    (hstrings : ∀ w ∈ Scan.stringsIn pending cs, balanced 0 w = true) :
    balanced depth (cs.drop pending) = true := by
  -- Along the scan, whose text is what is left of `cs`, the closing parenthesis and what follows it.
  generalize htext : cs ++ ')' :: after = text at h
  fun_induction Grammar.Scan.parenEnd pending depth text generalizing cs with
  | case1 => cases h
  | case2 pending depth c ts ih =>
    obtain ⟨ds, rfl, rfl, hv⟩ := exists_tail h htext
    exact ih hstrings rfl hv
  | case3 depth ts ih =>
    obtain ⟨ds, rfl, rfl, hv⟩ := exists_tail h htext
    exact ih (by simpa [Scan.stringsIn, Grammar.Scan.stringLiteral_cons_eq] using hstrings) rfl hv
  | case4 ts =>
    have hw := (Prod.mk.inj (Option.some.inj h)).1
    obtain rfl : cs = [] := by simpa using hw.symm
    rfl
  | case5 ts depth hopen ih =>
    obtain ⟨ds, rfl, rfl, hv⟩ := exists_tail h htext
    exact ih (by simpa [Scan.stringsIn, Grammar.Scan.stringLiteral_cons_eq] using hstrings) rfl hv
  | case6 depth c ts hopen hclose lexeme rest hstring ih =>
    obtain ⟨ds, rfl, rfl, hv⟩ := exists_tail h htext
    -- The string ends before the closing parenthesis, so it is one of `cs` too.
    have hlength := Grammar.Scan.length_parenEnd hv
    rw [List.length_append, List.length_singleton] at hlength
    obtain ⟨r, hown⟩ := (Grammar.Scan.stringLiteral_before_paren after).2
      ⟨⟨rest, hstring⟩, by omega⟩
    rw [Scan.stringsIn, hown] at hstrings
    obtain ⟨hlexeme, hrest⟩ := List.forall_mem_cons.1 hstrings
    obtain ⟨q, more, rfl, -⟩ := Grammar.Scan.stringLiteral_cons hown
    have hcut := Grammar.Scan.cuts_stringLiteral _ _ _ hown
    have ih := ih hrest rfl hv
    have hdrop : ds.drop ((q :: more).length - 1) = r := by
      rw [(List.cons.inj hcut).2]
      simp
    rw [hdrop] at ih
    rw [List.drop_zero, hcut]
    exact (balanced_append hlexeme depth r).trans ih
  | case7 depth c ts hopen hclose hstring ih =>
    obtain ⟨ds, rfl, rfl, hv⟩ := exists_tail h htext
    have hnone : Grammar.Scan.stringLiteral (c :: ds) = none := by
      refine Option.eq_none_iff_forall_ne_some.2 fun cut hcut => ?_
      obtain ⟨⟨r, hr⟩, -⟩ := (Grammar.Scan.stringLiteral_before_paren after).1 ⟨cut.2, hcut⟩
      rw [hstring] at hr
      cases hr
    rw [Scan.stringsIn, hnone] at hstrings
    rw [List.drop_zero, balanced_cons_of_ne _ _ hopen hclose]
    exact ih hstrings rfl hv

/-! ## Defaults in a tree -/

/-- The value of the last default of a column. -/
def lastDefault? (column : Tree) : Option Tree :=
  (column.lastChild? .defaultClause).bind (·.child? .defaultValue)

/-- How the last default of a column is spelled, if the grammar reads it as an expression in
parentheses. -/
def parenDefault? (text : List Char) (column : Tree) : Option (List Char) :=
  (lastDefault? column).bind fun value => (value.child? .parenExpr).map (·.span.slice text)

variable {text : List Char} {tree column value : Tree}

theorem ColumnOutline.default_add {part : Tree} (o : ColumnOutline)
    (h : part.rule = .defaultClause → (part.child? .defaultValue).isSome = true) :
    (o.add part).default
      = if part.rule = .defaultClause then partSpan? part .defaultValue else o.default := by
  unfold add
  cases hr : part.rule with
  | defaultClause =>
    obtain ⟨value, hvalue⟩ := Option.isSome_iff_exists.1 (h hr)
    simp [partSpan?, hvalue]
  | identifier =>
    simp only
    split <;> rfl
  | _ => rfl

/-- The outline of a column tells where the value of its last default stands. -/
theorem ColumnOutline.default_ofTree (h : Yields (raise text) Grammar.Ddl.columnDef [column])
    (hvalue : lastDefault? column = some value) : (ofTree column).default = some value.span := by
  have hadd : ∀ part ∈ column.children, ∀ o : ColumnOutline, (o.add part).default
      = if part.rule = .defaultClause then partSpan? part .defaultValue else o.default := by
    refine fun part hpart o => default_add o fun hrule => ?_
    obtain ⟨u, hu, -⟩ :=
      Grammar.Ddl.yields_defaultValue (Grammar.Ddl.yields_defaultClause h hpart hrule)
    rw [Tree.child?, find?_of_filter hu]
    rfl
  obtain ⟨clause, hclause, hchild⟩ := Option.bind_eq_some_iff.1 hvalue
  have hlast := foldl_last ColumnOutline.default hadd {}
  rw [← Tree.lastChild?, hclause, Option.map_some, Option.getD_some, partSpan?, hchild] at hlast
  exact hlast

/-- The value of a default is matched by itself. -/
theorem exists_found_defaultValue (htree : declarationTree text = .ok (some tree))
    (hcolumn : column ∈ tree.children.filter (·.rule == .columnDef))
    (hvalue : lastDefault? column = some value) :
    ∃ start stop : Cursor, start.IsIn (raise text)
      ∧ found Grammar.Ddl.defaultValue start = some ([value], stop) := by
  obtain ⟨clause, hlast, hchild⟩ := Option.bind_eq_some_iff.1 hvalue
  obtain ⟨hcolumn, hcolumnRule⟩ := List.mem_filter.1 hcolumn
  obtain ⟨hclause, hclauseRule⟩ := List.mem_filter.1 (List.mem_of_getLast? hlast)
  obtain ⟨hvalue, hvalueRule⟩ := Tree.mem_children_of_child? hchild
  -- Down the tree, the declaration, the column and the default are matched by themselves.
  have hcolumn := (isMatch_declarationTree htree).child Grammar.Ddl.columnDef hcolumn
    (by simpa using hcolumnRule) fun _ => Grammar.Expr.eq_of_mem_pair
  have hclause := hcolumn.child Grammar.Ddl.defaultClause hclause (by simpa using hclauseRule)
    fun _ => List.mem_singleton.1
  exact (hclause.child Grammar.Ddl.defaultValue hvalue hvalueRule
    fun _ => List.mem_singleton.1).exists_found

/-- An expression in parentheses is the whole of the value. -/
theorem span_of_parenExpr {start stop : Cursor} {child : Tree} (hstart : start.IsIn text)
    (h : found Grammar.Ddl.defaultValue start = some ([value], stop))
    (hchild : value.child? .parenExpr = some child) :
    value.span = child.span ∧ IsLexeme text Grammar.Scan.parenExpr child.span := by
  obtain ⟨us, hinside, heq⟩ := Grammar.Expr.found_phrase_iff.1 h
  obtain rfl := (List.cons.inj heq).1
  obtain ⟨r, -, rfl⟩ := Grammar.Ddl.single_defaultValue hinside
  obtain ⟨hmem, hrule⟩ := Tree.mem_children_of_child? hchild
  obtain rfl := List.mem_singleton.1 hmem
  refine ⟨rfl, ?_⟩
  have hyields := (Grammar.Expr.yields_of_found Grammar.Ddl.cuts_defaultValue hstart h).1
  obtain ⟨span, hlexeme, htoken⟩ := hyields.child (x := Grammar.Ddl.parenExpr) hmem hrule
    fun _ => List.mem_singleton.1
  obtain ⟨-, hspanstart, hspanstop, -⟩ := Tree.node.inj (List.cons.inj htoken).1
  rw [Tree.span, hspanstart, hspanstop]
  exact hlexeme

/-! ## Defaults as they are stored -/

/-- A text that is read as an expression in parentheses begins and ends with them. -/
theorem exists_inner {span : Span} (h : IsLexeme (raise text) Grammar.Scan.parenExpr span) :
    ∃ inner after, span.slice text = '(' :: (inner ++ [')'])
      ∧ Grammar.Scan.parenEnd 0 0 (raise inner ++ ')' :: after) = some (raise inner ++ [')'], after) := by
  obtain ⟨after, hscan⟩ := h.slice
  rw [← Span.raise_slice] at hscan
  obtain ⟨opening, rest, w, hopening, hend, hwhole⟩ := Grammar.Scan.chain_eq_some.1 hscan
  obtain ⟨rfl, hrest⟩ := Grammar.Scan.word_eq_some.1 hopening
  obtain ⟨more, hmore⟩ := Grammar.exists_of_raise_eq_cons (d := '(') rfl hwhole
  rw [hmore, raise_cons] at hrest hwhole
  obtain ⟨-, rfl⟩ := List.cons.inj hwhole
  obtain ⟨closed, hclosed⟩ := Grammar.Scan.exists_parenEnd hend
  obtain ⟨inner, last, rfl, hinner, hlast⟩ := List.map_eq_append_iff.1 hclosed
  obtain ⟨close, rfl⟩ := Grammar.exists_of_raise_eq_cons (d := ')') rfl hlast
  obtain rfl : close = [] := by simpa using hlast
  refine ⟨inner, after, hmore, ?_⟩
  obtain rfl : rest = raise (inner ++ [')']) ++ after := (List.cons.inj hrest).2.symm
  simpa [raise] using hend

theorem stripParens_parens (inner : List Char) :
    stripParens (trimBlank ('(' :: (inner ++ [')'])))
      = if balanced 0 inner then trimBlank inner else '(' :: (inner ++ [')']) := by
  have htrim : trimBlank ('(' :: (inner ++ [')'])) = '(' :: (inner ++ [')']) :=
    trimWhere_eq_self inner (by decide) (by decide)
  rw [htrim, stripParens, between?_eq_some.2 rfl]

/-- A default that is read as an expression in parentheses is stored without them, and trimmed, where
what stands between them is balanced. So it is where every string that is skipped there is balanced, at
whatever depth; elsewhere the default is stored as it is written. -/
theorem default_stripped {s : String} {t : Table} {warnings : List Warning}
    (h : readTable s = .ok (some (t, warnings))) :
    ∃ tree, declarationTree s.toList = .ok (some tree)
      ∧ List.Forall₂ (fun column (c : Column) => ∀ written, parenDefault? s.toList column = some written →
          ∃ inner, written = '(' :: (inner ++ [')'])
            ∧ c.default = some (String.ofList (if balanced 0 inner then trimBlank inner else written))
            ∧ ((∀ w ∈ Scan.stringsIn 0 (raise inner), balanced 0 w = true) →
                c.default = some (String.ofList (trimBlank inner))))
          (tree.children.filter (·.rule == .columnDef)) t.columns := by
  obtain ⟨tree, keys, htree, -, -, rfl, -⟩ := exists_outline h
  refine ⟨tree, htree, ?_⟩
  rw [Outline.columns_fill_ofTree, List.forall₂_map_right_iff, List.forall₂_same]
  intro column hcolumn written hwritten
  obtain ⟨value, hvalue, hspelled⟩ := Option.bind_eq_some_iff.1 hwritten
  obtain ⟨child, hchild, rfl⟩ := Option.map_eq_some_iff.1 hspelled
  obtain ⟨start, stop, hstart, hfound⟩ := exists_found_defaultValue htree hcolumn hvalue
  obtain ⟨hspan, hlexeme⟩ := span_of_parenExpr hstart hfound hchild
  obtain ⟨inner, after, hslice, hend⟩ := exists_inner hlexeme
  have hstored : ((ColumnOutline.ofTree column).fill s.toList).default = some (String.ofList
      (if balanced 0 inner then trimBlank inner else '(' :: (inner ++ [')']))) := by
    obtain ⟨hmem, hrule⟩ := List.mem_filter.1 hcolumn
    have hyields := Grammar.Ddl.yields_columnDef (yields_declarationTree htree) hmem (by simpa using hrule)
    rw [ColumnOutline.fill, ColumnOutline.default_ofTree hyields hvalue, Option.map_some, hspan, hslice,
      stripParens_parens]
  refine ⟨inner, hslice, by rw [hslice]; exact hstored, fun hstrings => ?_⟩
  have hbalanced := balanced_of_parenEnd hend hstrings
  rw [List.drop_zero, balanced_raise] at hbalanced
  rw [hstored, if_pos hbalanced]

/-- Nested parentheses and strings that hold balanced ones, a quote of the other kind and one that is
escaped. -/
def nestedExpr : String := " Concat('()', \"''\", '(\\')', (b)) "

/-- A column that has it as its second default. -/
def nestedDefault : String := "CREATE TABLE t (a Char DEFAULT (1) DEFAULT (" ++ nestedExpr ++ "))"

/-- The table of that declaration. -/
def nestedDefaultTable : Table where
  name := "t"
  columns := [
    { name := "a", declaredType := "CHAR", flags := { hasDefault := true },
      default := some "Concat('()', \"''\", '(\\')', (b))" }]

theorem exists_column (written : Option (List Char))
    (htree : declarationTree text = .ok (some tree))
    (heval : ((declarationTree text).toOption.bind id).map (fun tree =>
      (tree.children.filter (·.rule == .columnDef)).map (parenDefault? text)) = some [written]) :
    ∃ column, tree.children.filter (·.rule == .columnDef) = [column]
      ∧ parenDefault? text column = written := by
  rw [htree] at heval
  obtain ⟨column, hcolumns, hwritten⟩ := List.map_eq_singleton_iff.1 (Option.some.inj heval)
  exact ⟨column, hcolumns, hwritten⟩

theorem default_stripped_nestedDefault :
    readTable nestedDefault = .ok (some (nestedDefaultTable, []))
    ∧ ∃ tree column, declarationTree nestedDefault.toList = .ok (some tree)
      ∧ tree.children.filter (·.rule == .columnDef) = [column]
      ∧ parenDefault? nestedDefault.toList column = some ('(' :: (nestedExpr.toList ++ [')']))
      ∧ nestedDefaultTable.columns.map (·.default)
        = [some (String.ofList (trimBlank nestedExpr.toList))] := by
  have hread : readTable nestedDefault = .ok (some (nestedDefaultTable, [])) :=
    eq_ok_of_toOption (by decide +kernel)
  have hstrings : ∀ w ∈ Scan.stringsIn 0 (raise nestedExpr.toList), balanced 0 w = true := by
    decide +kernel
  obtain ⟨tree, htree, hstored⟩ := default_stripped hread
  obtain ⟨column, hcolumns, hwritten⟩ := exists_column
    (some ('(' :: (nestedExpr.toList ++ [')']))) htree (by decide +kernel)
  refine ⟨hread, tree, column, htree, hcolumns, hwritten, ?_⟩
  rw [hcolumns, nestedDefaultTable, List.forall₂_cons] at hstored
  obtain ⟨inner, hinner, -, hkept⟩ := hstored.1 _ hwritten
  obtain rfl : nestedExpr.toList = inner := by simpa using hinner
  rw [nestedDefaultTable, List.map_singleton, hkept hstrings]

/-- A default that holds one parenthesis, in a string. -/
def parenInString : String := "CREATE TABLE t (a CHAR(1) DEFAULT ('('))"

/-- The table that is read of it keeps the parentheses. -/
def parenInStringTable : Table where
  name := "t"
  columns := [
    { name := "a", declaredType := "CHAR", flags := { hasDefault := true }, default := some "('(')" }]

/-- The grammar reads the default as an expression in parentheses, and they are not taken off. -/
theorem not_default_stripped_parenInString :
    readTable parenInString = .ok (some (parenInStringTable, []))
    ∧ ∃ tree, declarationTree parenInString.toList = .ok (some tree)
      ∧ ¬List.Forall₂ (fun column (c : Column) => ∀ inner,
          parenDefault? parenInString.toList column = some ('(' :: (inner ++ [')'])) →
            c.default = some (String.ofList (trimBlank inner)))
          (tree.children.filter (·.rule == .columnDef)) parenInStringTable.columns := by
  have hread : readTable parenInString = .ok (some (parenInStringTable, [])) :=
    eq_ok_of_toOption (by decide +kernel)
  obtain ⟨tree, keys, htree, -⟩ := exists_outline hread
  obtain ⟨column, hcolumns, hwritten⟩ := exists_column
    (some ('(' :: ("'('".toList ++ [')']))) htree (by decide +kernel)
  refine ⟨hread, tree, htree, fun hstored => ?_⟩
  rw [hcolumns, parenInStringTable, List.forall₂_cons] at hstored
  exact absurd (hstored.1 _ hwritten) (by decide +kernel)

end GoScaffold
