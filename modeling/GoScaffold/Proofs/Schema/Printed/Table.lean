import GoScaffold.Proofs.Schema.Printed.Key
import GoScaffold.Proofs.Sql.Declaring
import GoScaffold.Proofs.Text.Paths
import GoScaffold.Schema.Basic

set_option autoImplicit false

/-! # Tables as they are written

A written declaration is read back as the table that it declares. The grammar takes it whole, item
by item; the draft of its outline is the table without keys and the keys by names; and since no two
columns share a name, every member of a key is found at its place. -/

namespace GoScaffold.Declaration

open Grammar Grammar.Expr Text

/-! ## Options -/

/-- The value is none of the forms that are tried before a bare word. -/
theorem takes_engineValue (before : List Char) {gap rest : List Char} (h : Parted gap rest) :
    ∃ ts, Takes Ddl.optionValue before ("InnoDB".toList ++ gap) rest ts := by
  have hbare := (found_bare before "InnoDB".toList (by decide) (by decide) h.endsWord).2
  have hstring (cs : List Char) := found_stringLiteral_eq_none (c := 'I') before cs (by decide)
  have hnumber (cs : List Char) :=
    found_signedNumber_eq_none (c := 'I') before cs (by decide) (by decide)
  have hparen (cs : List Char) := found_parenExpr_eq_none (c := 'I') before cs (by decide)
  obtain ⟨stop, ht⟩ := (Takes.alt_right (hstring _) (.alt_right (hnumber _)
    (.alt_right (hparen _) (.of_found hbare h)))).phrase .optionValue
  exact ⟨_, ht⟩

section

variable (before cs : List Char)

theorem heads_engine : Heads ["ENGINE"] ("ENGINE".toList ++ '=' :: cs) :=
  ⟨"ENGINE", by simp, _, rfl, by simp [EndsWord]; decide⟩

theorem found_kw_engine {k : Keyword} (hk : ∀ u ∈ k.words, u ∉ ["ENGINE"]) :
    found (Ddl.kw k) (.place before ("ENGINE".toList ++ '=' :: cs)) = none :=
  found_kw_eq_none before (heads_engine cs) (by decide) hk

theorem takes_engineName :
    ∃ ts, Takes Ddl.optionName before "ENGINE".toList ('=' :: cs) ts := by
  have hmark : Parted [] ('=' :: cs) := .mark _ (by decide)
  have hbare := (found_bare before "ENGINE".toList (by decide) (by decide) hmark.endsWord).2
  have hcharacter := found_kw_engine before cs (k := .character) (by decide)
  have hcharset := found_kw_engine before cs (k := .charset) (by decide)
  have hcollate := found_kw_engine before cs (k := .collate) (by decide)
  obtain ⟨stop, ht⟩ := (Takes.alt_right (found_seq_eq_none hcharacter)
    (.alt_right hcharset (.alt_right hcollate (.of_found hbare hmark)))).phrase .optionName
  exact ⟨_, ht⟩

end

/-- At a word that is no keyword of its own, no option of the table is a comment. -/
theorem takes_engine (before : List Char) {gap rest : List Char} (h : Parted gap rest) :
    ∃ t, Takes Ddl.tableOption before ("ENGINE=InnoDB".toList ++ gap) rest [t]
      ∧ t.rule = .genericOption := by
  obtain ⟨us, hvalue⟩ := takes_engineValue (before ++ "ENGINE=".toList) h
  obtain ⟨vs, hname⟩ := takes_engineName before ("InnoDB".toList ++ gap ++ rest)
  have hheads := heads_engine ("InnoDB".toList ++ gap ++ rest)
  have hkw {k : Keyword} := found_kw_engine before ("InnoDB".toList ++ gap ++ rest) (k := k)
  have hequals : Takes (.opt (Ddl.mark '=')) (before ++ "ENGINE".toList) "=".toList
      ("InnoDB".toList ++ gap ++ rest) [] :=
    .opt (.mark _ rfl (by simp) (settled_cons _ (by decide) (by decide)))
  have hdefault : Takes (.opt (Ddl.kw .default)) before []
      ("ENGINE".toList ++ ('=' :: ("InnoDB".toList ++ gap ++ rest))) [] :=
    .opt_none _ (hkw (by decide)) (hheads.settled (by decide))
  have hcomma : Takes (.opt (Ddl.mark ',')) before []
      ("ENGINE".toList ++ ('=' :: ("InnoDB".toList ++ gap ++ rest))) [] :=
    .opt_none _ (found_mark_eq_none _ rfl (by simp)) (hheads.settled (by decide))
  have hcomment : found Ddl.tableComment (.place before
      ("ENGINE".toList ++ ('=' :: ("InnoDB".toList ++ gap ++ rest)))) = none := by
    have := hkw (k := .comment) (by decide)
    exact found_phrase_eq_none (found_seq_eq_none this)
  obtain ⟨stop, ht⟩ := (hdefault.seq_of_eq (hname.seq (hequals.seq_of_eq hvalue rfl (by simp))) rfl
    (by simp)).phrase .genericOption
  refine ⟨_, (hcomma.seq_of_eq (.alt_right ?_ ht) rfl (by simp)).of_eq ?_, rfl⟩
  · simpa using hcomment
  · simp

theorem takes_comment (r : Remark) (before : List Char) {gap rest : List Char}
    (h : Parted gap rest) :
    ∃ stop t, Takes Ddl.tableOption before ("COMMENT=".toList ++ (r.sql.toList ++ gap)) rest
      [.node .tableComment (width before) stop [t,
        .node .stringLiteral (width (before ++ "COMMENT=".toList))
          (width (before ++ "COMMENT=".toList) + width r.sql.toList) []]]
      ∧ t.rule ≠ .stringLiteral := by
  have hvalue := r.takes (before ++ "COMMENT=".toList) h
  have hquote : Settled (r.sql.toList ++ gap ++ rest) := by
    rw [List.append_assoc]
    exact r.settled_sql _
  have hequals : Takes (.opt (Ddl.mark '=')) (before ++ "COMMENT".toList) "=".toList
      (r.sql.toList ++ gap ++ rest) [] := .opt (.mark _ rfl (by simp) hquote)
  have hword : Takes (Ddl.kw .comment) before (Keyword.comment.spelling.toList ++ [])
      ('=' :: (r.sql.toList ++ gap ++ rest)) _ := .kw before .comment (.mark _ (by decide))
  have hcomma : Takes (.opt (Ddl.mark ',')) before []
      ("COMMENT".toList ++ ('=' :: (r.sql.toList ++ gap ++ rest))) [] :=
    .opt_none _ (found_mark_eq_none _ rfl (by simp)) (settled_cons _ (by decide) (by decide))
  obtain ⟨stop, ht⟩ := (hword.seq_of_eq (hequals.seq_of_eq hvalue rfl (by simp)) (by simp)
    (by simp [Keyword.spelling])).phrase .tableComment
  exact ⟨stop, _, (hcomma.seq_of_eq (.alt_left ht) (by simp [Keyword.spelling]) (by simp)).of_eq
    (by simp [Keyword.spelling]), by simp [Tree.rule]⟩

theorem found_tableOption_eq_none (before cs : List Char) :
    found Ddl.tableOption (.place before (';' :: cs)) = none := by
  have hheads : Heads [""] (';' :: cs) := .of_mark cs (by decide)
  have hskip : (Cursor.place before (';' :: cs)).skip = .place before (';' :: cs) :=
    Cursor.skip_place_of_settled (settled_cons cs (by decide) (by decide))
  have hcomma := found_mark_eq_none before (d := ',') rfl (by simp : ∀ c ∈ (';' :: cs).head?, c ≠ ',')
  have hbare := found_bareIdent_eq_none before cs (c := ';') (by decide)
  simp (disch := decide) [Ddl.tableOption, Ddl.tableComment, Ddl.genericOption, Ddl.optionName,
    found, found_kw_eq_none_of_no_word before hheads, hskip, hcomma, hbare]

theorem draft_add_tableComment {o : Outline} {whole : List Char} {t : Tree} {a b c d : Nat}
    (ht : t.rule ≠ .stringLiteral) :
    (o.add (.node .tableComment a b [t, .node .stringLiteral c d []])).draft whole
      = ({ (o.draft whole).1 with comment := some (stringAt whole ⟨c, d⟩) },
        (o.draft whole).2) := by
  obtain ⟨rule, first, last, children⟩ := t
  have hrule : rule ≠ .stringLiteral := ht
  simp [Outline.add, Outline.draft, Tree.rule, partSpan?, Tree.child?, Tree.children, Tree.span,
    hrule]

/-! ## Options with a comment -/

/-- The options of a table as they are written, given its comment. -/
def optionsText (comment : Option Remark) : String :=
  comment.elim "ENGINE=InnoDB" fun r => "ENGINE=InnoDB COMMENT=" ++ r.sql

/-- The draft of a table with its comment. -/
def withComment (comment : Option Remark) (draft : Table × List (KeyKind × List String)) :
    Table × List (KeyKind × List String) :=
  match comment with
  | none => draft
  | some r => ({ draft.1 with comment := some r.value }, draft.2)

theorem takes_options (comment : Option Remark) (before : List Char) :
    ∃ ts, Takes (.many Ddl.tableOption) before (optionsText comment).toList [';'] ts
      ∧ ∀ o : Outline, (ts.foldl Outline.add o).draft (before ++ ((optionsText comment).toList ++ [';']))
        = withComment comment (o.draft (before ++ ((optionsText comment).toList ++ [';']))) := by
  have hend : Parted [] [';'] := .mark [] (by decide)
  cases comment with
  | none =>
    obtain ⟨t, ht, hrule⟩ := takes_engine before hend
    have hmany := ht.many_one (by simp) hend.settled (found_tableOption_eq_none _ [])
    refine ⟨[t], hmany.of_eq (by simp [optionsText]), fun o => ?_⟩
    simp [withComment, Outline.add, hrule]
  | some r =>
    have hblank : Parted [' '] ("COMMENT=".toList ++ (r.sql.toList ++ []) ++ [';']) :=
      .blank (settled_cons _ (by decide) (by decide))
    obtain ⟨t, ht, hrule⟩ := takes_engine before hblank
    obtain ⟨stop, u, hu, hne⟩ := takes_comment r (before ++ ("ENGINE=InnoDB".toList ++ [' '])) hend
    have hmany := ht.many_two hu (by simp) hend.settled (found_tableOption_eq_none _ [])
    have htext : (optionsText (some r)).toList = "ENGINE=InnoDB".toList ++ [' ']
        ++ ("COMMENT=".toList ++ (r.sql.toList ++ [])) := by
      simp [optionsText]
    refine ⟨_, hmany.of_eq htext, fun o => ?_⟩
    have hwhole : before ++ ((optionsText (some r)).toList ++ [';'])
        = before ++ ("ENGINE=InnoDB".toList ++ [' ']) ++ "COMMENT=".toList
          ++ (r.sql.toList ++ [';']) := by
      simp [htext]
    have hvalue := r.stringAt
      (before ++ ("ENGINE=InnoDB".toList ++ [' ']) ++ "COMMENT=".toList) [';']
    have hadd : o.add t = o := by simp [Outline.add, hrule]
    rw [List.singleton_append, List.foldl_cons, hadd, List.foldl_cons, List.foldl_nil, hwhole,
      draft_add_tableComment hne, hvalue]
    rfl

theorem takes_tableName (n : Name) (before cs : List Char) :
    ∃ stop, Takes Ddl.tableName before (n.sql.toList ++ [' ']) ('(' :: cs)
      [.node .tableName (width before) stop
        [.node .identifier (width before) (width before + width n.sql.toList) []]] := by
  have hopen : Settled ('(' :: cs) := settled_cons _ (by decide) (by decide)
  have hdot : Takes (.opt (Ddl.mark '.' >> Ddl.identifier)) (before ++ (n.sql.toList ++ [' '])) []
      ('(' :: cs) [] :=
    .opt_none _ (found_seq_eq_none (found_mark_eq_none _ rfl (by simp))) hopen
  obtain ⟨stop, ht⟩ := ((n.takes before (.blank hopen)).seq hdot).phrase .tableName
  exact ⟨stop, ht.of_eq (by simp)⟩

/-- The words before the name of the table. -/
theorem takes_opening {e : Expr} {text piece : List Char} {ts : List Tree}
    (htext : text = '`' :: piece) (h : Takes e ("CREATE ".toList ++ "TABLE ".toList) text [] ts) :
    ∃ a b, Takes (.start >> Ddl.kw .create >> .opt (Ddl.kw .temporary) >> Ddl.kw .table
        >> .opt Ddl.ifNotExists >> e) [] ("CREATE ".toList ++ ("TABLE ".toList ++ text)) []
        (a :: b :: ts)
      ∧ ∀ o : Outline, (o.add a).add b = o := by
  subst htext
  have hquote : Settled ('`' :: piece ++ []) := settled_cons _ (by decide) (by decide)
  have hexists : Takes (.opt Ddl.ifNotExists) ("CREATE ".toList ++ "TABLE ".toList) []
      ('`' :: piece ++ []) [] := by
    have hif := found_kw_eq_none ("CREATE ".toList ++ "TABLE ".toList)
      (.of_mark (piece ++ []) (by decide : Scan.isIdentChar '`' = false)) (by decide)
      (k := .if_) (by decide)
    exact .opt_none _ (found_phrase_eq_none (found_seq_eq_none hif)) hquote
  have htable : Takes (Ddl.kw .table) "CREATE ".toList "TABLE ".toList ('`' :: piece ++ []) _ :=
    takes_word .table rfl hquote
  have hword : Settled ("TABLE ".toList ++ '`' :: piece ++ []) :=
    settled_cons _ (by decide) (by decide)
  have htemporary : Takes (.opt (Ddl.kw .temporary)) "CREATE ".toList []
      ("TABLE ".toList ++ '`' :: piece ++ []) [] := by
    have hheads : Heads ["TABLE"] ("TABLE ".toList ++ '`' :: piece ++ []) :=
      ⟨"TABLE", by simp, ' ' :: '`' :: piece, by simp, by simp [EndsWord]; decide⟩
    exact .opt_none _ (found_kw_eq_none _ hheads (by decide) (by decide)) hword
  have hcreate : Takes (Ddl.kw .create) [] "CREATE ".toList ("TABLE ".toList ++ '`' :: piece ++ [])
      _ := takes_word .create rfl hword
  have hstart : Takes .start [] [] ("CREATE ".toList ++ ("TABLE ".toList ++ '`' :: piece ++ [])) [] := by
    refine ⟨.place [] _, rfl, Cursor.skip_place_of_settled ?_⟩
    exact settled_cons _ (by decide) (by decide)
  have hall := hstart.seq_of_eq (hcreate.seq (htemporary.seq (htable.seq (hexists.seq h)))) rfl rfl
  exact ⟨_, _, hall, fun o => rfl⟩

/-- The end of the definitions, the options and the end of the statement. -/
theorem takes_ending (comment : Option Remark) (before : List Char) :
    ∃ ts, Takes (Ddl.mark ')' >> .many Ddl.tableOption >> .opt (Ddl.mark ';') >> Ddl.endOfText)
        before (") ".toList ++ ((optionsText comment).toList ++ [';'])) [] ts
      ∧ ∀ o : Outline, (ts.foldl Outline.add o).draft
          (before ++ (") ".toList ++ ((optionsText comment).toList ++ [';'])))
        = withComment comment
          (o.draft (before ++ (") ".toList ++ ((optionsText comment).toList ++ [';'])))) := by
  obtain ⟨ts, hoptions, hsays⟩ := takes_options comment (before ++ ") ".toList)
  have hend (before : List Char) : Takes Ddl.endOfText before [] []
      [.node .endOfText (width before) (width before) []] := by
    refine ⟨.place before [], ?_, by simpa using Cursor.skip_place_of_settled settled_nil⟩
    simp [found, Ddl.endOfText, Cursor.advance?, Cursor.place, Scan.atEnd, width]
  have hsemicolon : Takes (.opt (Ddl.mark ';')) (before ++ ") ".toList ++ (optionsText comment).toList)
      [';'] []
      [] := .opt (.mark _ rfl (by simp) settled_nil)
  have hfirst : Settled ((optionsText comment).toList ++ [';']) := by
    cases comment <;> simp only [optionsText, Option.elim_none, Option.elim_some,
      String.toList_append] <;> exact settled_cons _ (by decide) (by decide)
  have hclose : Takes (Ddl.mark ')') before (") ".toList) ((optionsText comment).toList ++ [';']) [] :=
    .mark _ rfl (by decide) hfirst
  have hall := hclose.seq_of_eq (hoptions.seq (hsemicolon.seq (hend _))) (by simp) rfl
  have hwhole : before ++ (") ".toList ++ ((optionsText comment).toList ++ [';']))
      = before ++ ") ".toList ++ ((optionsText comment).toList ++ [';']) := by simp
  refine ⟨_, hall.of_eq (by simp), fun o => ?_⟩
  rw [hwhole, List.nil_append, List.foldl_append, ← hsays]
  rfl

/-! ## Definitions -/

/-- The key by its kind and the names of its members. -/
def TableDef.namedKey (d : TableDef) (k : KeyDef d.columns.length) : KeyKind × List String :=
  (k.kind, k.members.map fun i => (d.columns.get i).name.text)

/-- Columns in one written form or another. -/
structure Form (γ : Type) where
  text : γ → List Char
  column : γ → Column
  takes : ∀ c before gap rest, AfterItem gap rest →
    ∃ t, Takes Ddl.columnDef before (text c ++ gap) rest [t] ∧ t.rule = .columnDef
      ∧ (ColumnOutline.ofTree t).fill (before ++ (text c ++ (gap ++ rest))) = column c
  quoted : ∀ c, ∃ more, text c = '`' :: more

namespace Form

variable {γ : Type} (F : Form γ) (d : TableDef)

/-- A column, or a key of the table, as it is written. -/
def itemText : γ ⊕ KeyDef d.columns.length → List Char
  | .inl c => F.text c
  | .inr k => (d.keySql k).toList

/-- The draft of a table with one more item. -/
def addItem (draft : Table × List (KeyKind × List String)) :
    γ ⊕ KeyDef d.columns.length → Table × List (KeyKind × List String)
  | .inl c => ({ draft.1 with columns := draft.1.columns ++ [F.column c] }, draft.2)
  | .inr k => (draft.1, draft.2 ++ [d.namedKey k])

/-- What the tree of an item says in the whole text. -/
def ItemSays (whole : List Char) (item : γ ⊕ KeyDef d.columns.length) (t : Tree) : Prop :=
  ∀ o : Outline, (o.add t).draft whole = F.addItem d (o.draft whole) item

theorem draft_add_tableConstraint {whole : List Char} {k : KeyDef d.columns.length} {t : Tree}
    (h : KeySays whole k.kind (k.members.map fun i => (d.columns.get i).name) t) :
    F.ItemSays d whole (.inr k) t := by
  intro o
  obtain ⟨key, hkey, hnames⟩ := Option.map_eq_some_iff.1 h.2
  simp [Outline.add, h.1, Outline.draft, hkey, hnames, addItem, TableDef.namedKey]

theorem takes_item (item : γ ⊕ KeyDef d.columns.length) (before gap rest : List Char)
    (h : AfterItem gap rest) :
    ∃ t, Takes Ddl.createDefinition before (F.itemText d item ++ gap) rest [t]
      ∧ F.ItemSays d (before ++ (F.itemText d item ++ (gap ++ rest))) item t := by
  cases item with
  | inl c =>
    obtain ⟨t, ht, hrule, hfill⟩ := F.takes c before gap rest h
    obtain ⟨more, hquote⟩ := F.quoted c
    have hfails : found Ddl.tableConstraint (.place before (F.text c ++ gap ++ rest)) = none := by
      rw [hquote]
      exact found_tableConstraint_eq_none before (.of_mark _ (by decide))
        (settled_cons _ (by decide) (by decide))
    refine ⟨t, .alt_right hfails ht, fun o => ?_⟩
    simp [Outline.add, hrule, Outline.draft, itemText, hfill, addItem]
  | inr k =>
    obtain ⟨i, is, hmembers⟩ := List.exists_cons_of_ne_nil k.nonempty
    have htext (gap : List Char) : F.itemText d (.inr k) ++ gap = (keyHead k.label k.kind).toList
        ++ ' ' :: membersText (d.columns.get i).name (is.map fun j => (d.columns.get j).name) gap := by
      simp [itemText, TableDef.keySql, hmembers, toList_join_cons, membersText, names,
        List.flatMap_map]
    obtain ⟨t, ht, hsays⟩ := takes_key k.label (d.columns.get i).name
      (is.map fun j => (d.columns.get j).name) before k.kind h
    rw [htext, htext]
    refine ⟨t, .alt_left ht, F.draft_add_tableConstraint d ?_⟩
    simpa [hmembers] using hsays

theorem settled_item (item : γ ⊕ KeyDef d.columns.length) (cs : List Char) :
    Settled (F.itemText d item ++ cs) := by
  cases item with
  | inl c =>
    obtain ⟨more, hquote⟩ := F.quoted c
    simp only [itemText, hquote]
    exact settled_cons _ (by decide) (by decide)
  | inr k =>
    have htext : ∃ c ds, (d.keySql k).toList = c :: ds ∧ Scan.isIdentChar c = true := by
      cases hkind : k.kind <;> simp [TableDef.keySql, keyHead, hkind] <;> decide
    obtain ⟨c, ds, hc, hident⟩ := htext
    simp only [itemText, hc]
    exact settled_of_isIdentChar _ hident

/-- The columns and then the keys. -/
def items (cs : List γ) : List (γ ⊕ KeyDef d.columns.length) := cs.map .inl ++ d.keys.map .inr

theorem foldl_addItem (cs : List γ) (draft : Table × List (KeyKind × List String)) :
    (items d cs).foldl (F.addItem d) draft
      = ({ draft.1 with columns := draft.1.columns ++ cs.map F.column },
        draft.2 ++ d.keys.map d.namedKey) := by
  have hcolumns (draft : Table × List (KeyKind × List String)) :
      cs.foldl (fun draft c => F.addItem d draft (.inl c)) draft
        = ({ draft.1 with columns := draft.1.columns ++ cs.map F.column }, draft.2) := by
    induction cs generalizing draft with
    | nil => simp
    | cons c cs ih => rw [List.foldl_cons, ih]; simp [addItem]
  have hkeys (ks : List (KeyDef d.columns.length)) (draft : Table × List (KeyKind × List String)) :
      ks.foldl (fun draft k => F.addItem d draft (.inr k)) draft
        = (draft.1, draft.2 ++ ks.map d.namedKey) := by
    induction ks generalizing draft with
    | nil => simp
    | cons k ks ih => rw [List.foldl_cons, ih]; simp [addItem]
  rw [items, List.foldl_append, List.foldl_map, List.foldl_map, hcolumns, hkeys]

theorem draft_foldl {whole : List Char} {items : List (γ ⊕ KeyDef d.columns.length)}
    {ts : List Tree} (h : List.Forall₂ (F.ItemSays d whole) items ts) (o : Outline) :
    (ts.foldl Outline.add o).draft whole = items.foldl (F.addItem d) (o.draft whole) := by
  induction h generalizing o with
  | nil => rfl
  | cons hsays _ ih => rw [List.foldl_cons, ih, hsays, List.foldl_cons]

theorem takes_definitions (a : γ ⊕ KeyDef d.columns.length)
    (as : List (γ ⊕ KeyDef d.columns.length)) (before rest : List Char) :
    ∃ ts, Takes (Ddl.list Ddl.createDefinition) before
        (F.itemText d a ++ ((as.flatMap fun b => ',' :: ("\n  ".toList ++ F.itemText d b)) ++ ['\n']))
        (')' :: rest) ts
      ∧ List.Forall₂ (F.ItemSays d (before ++ (F.itemText d a
          ++ ((as.flatMap fun b => ',' :: ("\n  ".toList ++ F.itemText d b)) ++ ['\n']) ++ ')' :: rest)))
        (a :: as) ts := by
  have hsep : ∀ c ∈ "\n  ".toList, Scan.isSpace c = true := by decide
  have hend : AfterItem ['\n'] (')' :: rest) :=
    ⟨.of_space (by decide) (settled_cons _ (by decide) (by decide)), ')', rest, rfl, .inr rfl⟩
  obtain ⟨ts, hts, hsays⟩ := Takes.list (F.ItemSays d) hsep (F.takes_item d) (F.settled_item d)
    (fun cs => afterItem_mark cs (.inl rfl)) hend hend.settled (by simp) a as before
  exact ⟨ts, hts, by rwa [List.append_assoc (F.itemText d a)]⟩

/-- The text of a declaration with these items. -/
def declarationText (a : γ ⊕ KeyDef d.columns.length) (as : List (γ ⊕ KeyDef d.columns.length))
    (comment : Option Remark) : List Char :=
  "CREATE ".toList ++ ("TABLE ".toList ++ ((d.name.sql.toList ++ [' '])
    ++ ("(\n  ".toList ++ ((F.itemText d a
      ++ ((as.flatMap fun b => ',' :: ("\n  ".toList ++ F.itemText d b)) ++ ['\n']))
      ++ (") ".toList ++ ((optionsText comment).toList ++ [';']))))))

theorem toList_declaration {definitions : List String} {options : String}
    {a : γ ⊕ KeyDef d.columns.length} {as : List (γ ⊕ KeyDef d.columns.length)}
    {comment : Option Remark} (hdefinitions : definitions.map String.toList = (a :: as).map (F.itemText d))
    (hoptions : options = optionsText comment) :
    ("CREATE TABLE " ++ d.name.sql ++ " (\n  " ++ Text.join ",\n  " definitions ++ "\n) " ++ options
      ++ ";").toList = F.declarationText d a as comment := by
  have hjoin := toList_join ",\n  " hdefinitions
  rw [List.flatMap_map] at hjoin
  have hcreate : "CREATE TABLE ".toList = "CREATE ".toList ++ "TABLE ".toList := by decide
  have hopen : " (\n  ".toList = [' '] ++ "(\n  ".toList := by decide
  have hcomma : ",\n  ".toList = ',' :: "\n  ".toList := by decide
  have hclose : "\n) ".toList = ['\n'] ++ ") ".toList := by decide
  have hend : ";".toList = [';'] := by decide
  unfold declarationText
  simp only [String.toList_append]
  rw [hjoin, hcreate, hopen, hcomma, hclose, hend, hoptions]
  simp only [List.append_assoc, List.cons_append]

/-- The written declaration is one statement of the grammar, and its outline says what it says. -/
theorem found_createTable {cs : List γ} {a : γ ⊕ KeyDef d.columns.length}
    {as : List (γ ⊕ KeyDef d.columns.length)} (hitems : items d cs = a :: as)
    {comment : Option Remark} {text : List Char} (htext : text = F.declarationText d a as comment) :
    ∃ t c, found Ddl.createTable (.place [] text) = some ([t], c)
      ∧ (Outline.ofTree t).draft text
        = ({ name := d.name.text, columns := cs.map F.column, comment := comment.map (·.value) },
          d.keys.map d.namedKey) := by
  unfold declarationText at htext
  obtain ⟨us, hdefinitions, hus⟩ := F.takes_definitions d a as ("CREATE ".toList ++ "TABLE ".toList
    ++ (d.name.sql.toList ++ [' ']) ++ "(\n  ".toList) (' ' :: ((optionsText comment).toList ++ [';']))
  obtain ⟨ts, hending, hts⟩ := takes_ending comment ("CREATE ".toList ++ "TABLE ".toList
    ++ (d.name.sql.toList ++ [' ']) ++ "(\n  ".toList ++ (F.itemText d a
      ++ ((as.flatMap fun b => ',' :: ("\n  ".toList ++ F.itemText d b)) ++ ['\n'])))
  have hlist := hdefinitions.seq_of_eq hending (by simp) rfl
  generalize hdefs : F.itemText d a
    ++ ((as.flatMap fun b => ',' :: ("\n  ".toList ++ F.itemText d b)) ++ ['\n']) = defs at *
  have hparen : Takes (Ddl.mark '(') ("CREATE ".toList ++ "TABLE ".toList
      ++ (d.name.sql.toList ++ [' '])) "(\n  ".toList
      (defs ++ (") ".toList ++ ((optionsText comment).toList ++ [';'])) ++ []) [] := by
    refine .mark _ rfl (by decide) ?_
    rw [← hdefs, List.append_assoc, List.append_assoc]
    exact F.settled_item d a _
  obtain ⟨stop, hname⟩ := takes_tableName d.name ("CREATE ".toList ++ "TABLE ".toList)
    ("\n  ".toList ++ (defs ++ (") ".toList ++ ((optionsText comment).toList ++ [';']))))
  have hbody := hname.seq_of_eq (hparen.seq hlist) (by simp) rfl
  obtain ⟨first, second, hall, hlead⟩ := takes_opening (by rw [d.name.toList_sql]; rfl) hbody
  obtain ⟨last, c, hfound, -⟩ := hall.phrase .createTable
  rw [List.append_nil, ← htext] at hfound
  refine ⟨_, c, hfound, ?_⟩
  have hnameAt : nameAt text ⟨width ("CREATE ".toList ++ "TABLE ".toList),
      width ("CREATE ".toList ++ "TABLE ".toList) + width d.name.sql.toList⟩ = d.name.text := by
    have := d.name.nameAt ("CREATE ".toList ++ "TABLE ".toList)
      ([' '] ++ ("(\n  ".toList ++ (defs ++ (") ".toList ++ ((optionsText comment).toList ++ [';'])))))
    rw [htext]
    simpa only [List.append_assoc] using this
  -- The outline is one fold over the parts; each part changes the draft as it says, so the draft of
  -- the whole is made part by part.
  have hts (o : Outline) : (ts.foldl Outline.add o).draft text
      = withComment comment (o.draft text) := by
    rw [htext]
    simpa only [List.append_assoc] using hts o
  have hus : List.Forall₂ (F.ItemSays d text) (a :: as) us := by
    have hclose : ") ".toList = [')', ' '] := rfl
    rw [htext, hclose]
    simpa only [List.append_assoc, List.cons_append, List.nil_append] using hus
  show ((List.foldl Outline.add {} (first :: second :: _)).draft _) = _
  rw [List.foldl_cons, List.foldl_cons, hlead, List.singleton_append, List.foldl_cons,
    List.nil_append, List.foldl_append, hts, F.draft_foldl d hus, ← hitems, F.foldl_addItem d]
  have hdraft : (Outline.add {} (.node .tableName (width ("CREATE ".toList ++ "TABLE ".toList)) stop
      [.node .identifier (width ("CREATE ".toList ++ "TABLE ".toList))
        (width ("CREATE ".toList ++ "TABLE ".toList) + width d.name.sql.toList) []])).draft
        text = ({ name := d.name.text }, []) := by
    rw [← hnameAt]
    rfl
  rw [hdraft]
  cases comment <;> simp [withComment]

end Form

/-! ## Reading back -/

namespace TableDef

variable (d : TableDef)

theorem isTableDeclaration_createTable (mid : List Char) :
    Sql.isTableDeclaration ("CREATE ".toList ++ ("TABLE ".toList ++ (mid ++ [';']))) = true := by
  have hgap : Sql.IsGap [' '] := ⟨by simp, by decide⟩
  refine Sql.isTableDeclaration_iff.2
    ⟨[], "CREATE TABLE".toList, ' ' :: (mid ++ [';']), rfl, by simp, .table hgap, ?_⟩
  rintro c ⟨⟩
  rfl

theorem unquote_name (n : Name) :
    trimWhere (· == '`') (trimBlank n.text.toList) = n.text.toList := by
  have hblank : ∀ c ∈ n.text.toList, isBlank c = false := fun c hc =>
    Sql.isBlank_of_isWordChar (n.plain c hc)
  have hquote : ∀ c ∈ n.text.toList, (c == '`') = false := by
    intro c hc
    have := n.no_backtick
    simp
    rintro rfl
    exact this hc
  rw [trimBlank, trimWhere_eq_self_of_forall hblank, trimWhere_eq_self_of_forall hquote]

theorem isNamed_iff (c : Column) (n : Name) :
    c.isNamed n.text = true ↔ raised c.name = raised n.text := by
  simp only [Column.isNamed, sameLetters_iff, toList_onChars, unquote_name, raised]
  exact ⟨fun h => congrArg String.ofList h, fun h => String.ofList_injective h⟩

/-- Columns that are named as declared are found by their names. -/
theorem columnIndex?_name {t : Table}
    (hnames : t.columns.map (·.name) = d.columns.map (·.name.text)) (i : Fin d.columns.length) :
    t.columnIndex? (d.columns.get i).name.text = some i.val := by
  have hlength : t.columns.length = d.columns.length := by
    simpa using congrArg List.length hnames
  have hname (j : Nat) (hj : j < t.columns.length) :
      t.columns[j].name = (d.columns.get ⟨j, hlength ▸ hj⟩).name.text := by
    have := List.getElem_of_eq hnames (by simpa using hj : j < (t.columns.map (·.name)).length)
    simpa using this
  rw [Table.columnIndex?, List.findIdx?_eq_some_iff_getElem]
  have hi : i.val < t.columns.length := by omega
  refine ⟨hi, (isNamed_iff _ _).2 ?_, fun j hj => ?_⟩
  · rw [hname]
  · have hne := List.pairwise_iff_getElem.1 d.distinct j i (by simp; omega) (by simp) hj
    simp only [List.getElem_map] at hne
    rw [isNamed_iff, hname]
    exact hne

/-- The keys by the places of their members. -/
def keyGroups : List (KeyKind × KeyGroup) :=
  d.keys.map fun k => (k.kind, ⟨k.members.map Fin.val⟩)

theorem groupsOf_keyGroups (kind : KeyKind) : groupsOf kind d.keyGroups = d.groups kind := by
  simp [groupsOf, keyGroups, groups, List.filter_map, Function.comp_def]

theorem fill_of_names {o : Outline} {text : List Char} {cs : List Column} {comment : Option String}
    (hnames : cs.map (·.name) = d.columns.map (·.name.text))
    (h : o.draft text
      = ({ name := d.name.text, columns := cs, comment := comment }, d.keys.map d.namedKey)) :
    o.fill text = ({ d.table with columns := cs, comment := comment }, []) := by
  generalize hbare : ({ name := d.name.text, columns := cs, comment := comment } : Table) = bare at h
  have hindex (i : Fin d.columns.length) :
      bare.columnIndex? (d.columns.get i).name.text = some i.val := by
    refine d.columnIndex?_name ?_ i
    rw [← hbare]
    exact hnames
  rw [Outline.draft, Prod.mk.injEq] at h
  obtain ⟨hdraft, hkeys⟩ := h
  have hresolved : o.keys.map (fun key => (key.1, (key.2.map (nameAt text)).map bare.columnIndex?))
      = d.keyGroups.map fun group => (group.1, group.2.places.map some) := by
    have hmap := congrArg
      (List.map fun key : KeyKind × List String => (key.1, key.2.map bare.columnIndex?)) hkeys
    rw [List.map_map, List.map_map] at hmap
    refine hmap.trans ?_
    simp [keyGroups, namedKey, ← hindex]
  rw [Outline.fill, hdraft, fillKeys_of_columnIndex? _ hresolved, Table.addKeyGroups_eq]
  · simp [groupsOf_keyGroups, ← hbare, table]
  · intro group hgroup
    obtain ⟨k, hk, rfl⟩ := List.mem_map.1 hgroup
    simpa using k.nonempty

end TableDef

namespace Form

variable {γ : Type} (F : Form γ) (d : TableDef)

/-- A declaration whose columns are written in some form, and named as declared, is read back. -/
theorem parseTable_eq {cs : List γ} (hcs : cs ≠ [])
    (hnames : (cs.map F.column).map (·.name) = d.columns.map (·.name.text)) {comment : Option Remark}
    {definitions : List String} {options : String}
    (hdefinitions : definitions.map String.toList = (items d cs).map (F.itemText d))
    (hoptions : options = optionsText comment) :
    parseTable ("CREATE TABLE " ++ d.name.sql ++ " (\n  " ++ Text.join ",\n  " definitions ++ "\n) "
        ++ options ++ ";")
      = .ok (some { d.table with
          columns := cs.map F.column
          comment := comment.map (·.value) }) := by
  obtain ⟨a, as, hitems⟩ : ∃ a as, items d cs = a :: as :=
    List.exists_cons_of_ne_nil (by simp [items, hcs])
  have htext := F.toList_declaration d (hitems ▸ hdefinitions) hoptions
  generalize "CREATE TABLE " ++ d.name.sql ++ " (\n  " ++ Text.join ",\n  " definitions ++ "\n) "
    ++ options ++ ";" = s at htext
  obtain ⟨t, c, hfound, hdraft⟩ := F.found_createTable d hitems htext
  have hdeclares : Sql.isTableDeclaration s.toList = true := by
    rw [htext]
    unfold declarationText
    simpa only [List.append_assoc] using TableDef.isTableDeclaration_createTable
      ((d.name.sql.toList ++ [' ']) ++ ("(\n  ".toList ++ ((F.itemText d a
        ++ ((as.flatMap fun b => ',' :: ("\n  ".toList ++ F.itemText d b)) ++ ['\n']))
        ++ (") ".toList ++ (optionsText comment).toList))))
  have htree : declarationTree s.toList = .ok (some t) := by
    rw [declarationTree, parse_eq_ok.2 ⟨c, hfound⟩]
    rfl
  simp [parseTable, readTable, hdeclares, htree, d.fill_of_names hnames hdraft, Except.map]

end Form

/-! ## Declarations of clauses -/

/-- Columns of clauses as they are written. -/
def ColumnDef.form : Form ColumnDef where
  text c := c.sql.toList
  column := ColumnDef.column
  takes c before _ _ h := c.takes before h
  quoted c := by simp [ColumnDef.toList_sql, Name.toList_sql]

namespace TableDef

variable (d : TableDef)

theorem definitions_eq :
    d.definitions.map String.toList
      = (Form.items d d.columns).map (ColumnDef.form.itemText d) := by
  simp [definitions, Form.items]
  rfl

theorem options_eq : d.options = optionsText (d.comment.map Literal.remark) := by
  cases hcomment : d.comment <;> simp [options, optionsText, hcomment, Literal.sql_remark]

/-- A written declaration is parsed back into the table that it declares. -/
theorem parseTable_sql : parseTable d.sql = .ok (some d.table) := by
  have hcomment : (d.comment.map Literal.remark).map (·.value) = d.table.comment := by
    rw [Option.map_map]
    rfl
  have hparse := ColumnDef.form.parseTable_eq d d.nonempty (by simp [ColumnDef.form, ColumnDef.column])
    d.definitions_eq d.options_eq
  rw [hcomment] at hparse
  exact hparse

end TableDef

/-! ## Declarations with comments of any value -/

/-- Columns with comments of any value as they are written. -/
def RemarkedColumn.form : Form RemarkedColumn where
  text c := c.sql.toList
  column := RemarkedColumn.column
  takes c before _ _ h := c.takes before h
  quoted c := by simp [RemarkedColumn.toList_sql, Parts.columnText, Name.toList_sql]

namespace RemarkedTable

variable (d : RemarkedTable)

theorem definitions_eq :
    (d.columns.map (·.sql) ++ d.plain.keys.map d.plain.keySql).map String.toList
      = (Form.items d.plain d.columns).map (RemarkedColumn.form.itemText d.plain) := by
  simp [Form.items]
  rfl

theorem options_eq :
    d.options = optionsText (d.remark.or (d.plain.comment.map Literal.remark)) := by
  cases hremark : d.remark with
  | none => simp [options, hremark, d.plain.options_eq]
  | some r => simp [options, optionsText, hremark]

/-- A declaration with comments of any value is parsed back into the table that it declares. -/
theorem parse_sql : parseTable d.sql = .ok (some d.table) := by
  have hne : d.columns ≠ [] := by
    intro hnil
    have hplain := d.columns_eq
    rw [hnil] at hplain
    exact d.plain.nonempty hplain.symm
  have hnames : (d.columns.map RemarkedColumn.form.column).map (·.name)
      = d.plain.columns.map (·.name.text) := by
    rw [← d.columns_eq]
    simp [RemarkedColumn.form, RemarkedColumn.column, RemarkedColumn.plain, ColumnDef.column]
  have hcomment : (d.remark.or (d.plain.comment.map Literal.remark)).map (·.value)
      = d.table.comment := by
    cases hremark : d.remark with
    | none =>
      simp only [table, hremark, Option.none_or, Option.map_none, Option.map_map]
      rfl
    | some r => simp [table, hremark]
  have hparse := RemarkedColumn.form.parseTable_eq d.plain hne hnames d.definitions_eq
    d.options_eq
  rw [hcomment] at hparse
  exact hparse

end RemarkedTable

end GoScaffold.Declaration
