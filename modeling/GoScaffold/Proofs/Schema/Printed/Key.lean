import GoScaffold.Proofs.Schema.Printed.Column

set_option autoImplicit false

/-! # Keys as they are written

The grammar takes a written key as a whole, and the outline of its tree has the kind of the key and
the names of its members. A primary key has no name, so only its members stand in parentheses; the
others are told apart by their first words alone. -/

namespace GoScaffold.Declaration

open Grammar Grammar.Expr Text

/-! ## Members of keys -/

/-- What the tree of a key member says in the whole text. -/
def MemberSays (whole : List Char) (n : Name) (t : Tree) : Prop :=
  (partSpan? t .identifier).map (GoScaffold.nameAt whole) = some n.text

theorem takes_keyPart (n : Name) (before gap rest : List Char) (h : AfterItem gap rest) :
    ∃ t, Takes Ddl.keyPart before (n.sql.toList ++ gap) rest [t]
      ∧ MemberSays (before ++ (n.sql.toList ++ (gap ++ rest))) n t := by
  have hlength : Takes (.opt (Ddl.mark '(' >> Ddl.number >> Ddl.mark ')'))
      (before ++ (n.sql.toList ++ gap)) [] rest [] := by
    have hmark := found_mark_eq_none (before ++ (n.sql.toList ++ gap)) (d := '(') rfl
      h.afterPart.noParen
    exact .opt_none _ (by simp [found, hmark]) h.settled
  have horder : Takes (.opt (Ddl.kw .asc <|> Ddl.kw .desc)) (before ++ (n.sql.toList ++ gap)) []
      rest [] := by
    have hnone : found (Ddl.kw .asc <|> Ddl.kw .desc)
        (.place (before ++ (n.sql.toList ++ gap)) rest) = none := by
      simp (disch := decide) [found, found_kw_eq_none_of_no_word _ h.heads]
    exact .opt_none _ hnone h.settled
  obtain ⟨stop, ht⟩ := ((n.takes before h.toParted).seq
    (hlength.seq_of_eq horder rfl (by simp))).phrase .keyPart
  refine ⟨_, by simpa [Ddl.keyPart] using ht, ?_⟩
  exact congrArg some (n.nameAt before (gap ++ rest))

theorem settled_sql (n : Name) (cs : List Char) : Settled (n.sql.toList ++ cs) := by
  rw [n.toList_sql]
  exact settled_cons _ (by decide) (by decide)

theorem afterItem_mark {c : Char} (cs : List Char) (hc : c = ',' ∨ c = ')') :
    AfterItem [] (c :: cs) :=
  ⟨.mark cs (by rcases hc with rfl | rfl <;> decide), c, cs, rfl, hc⟩

/-- Names with commas between them. -/
def names (n : Name) (ns : List Name) : List Char :=
  n.sql.toList ++ ns.flatMap fun m => ',' :: ([' '] ++ m.sql.toList)

theorem takes_keyParts (n : Name) (ns : List Name) (before : List Char) {gap rest : List Char}
    (h : Parted gap rest) :
    ∃ stop ts, Takes Ddl.keyParts before ('(' :: (names n ns ++ ')' :: gap)) rest
        [.node .keyParts (width before) stop ts]
      ∧ List.Forall₂ (MemberSays (before ++ ('(' :: (names n ns ++ ')' :: (gap ++ rest)))))
        (n :: ns) ts := by
  have hsep : ∀ c ∈ [' '], Scan.isSpace c = true := by decide
  have hend : AfterItem [] (')' :: (gap ++ rest)) := afterItem_mark _ (.inr rfl)
  obtain ⟨ts, hts, hsays⟩ := Takes.list MemberSays hsep takes_keyPart settled_sql
    (fun cs => afterItem_mark cs (.inl rfl)) hend hend.settled (by simp) n ns (before ++ ['('])
  have hfirst : Settled (names n ns ++ ')' :: (gap ++ rest)) := by
    rw [names, List.append_assoc]
    exact settled_sql n _
  have hopen : Takes (Ddl.mark '(') before ['('] (names n ns ++ ')' :: (gap ++ rest)) [] :=
    .mark _ rfl (by simp) hfirst
  have hclose : Takes (Ddl.mark ')') (before ++ ['('] ++ names n ns) (')' :: gap) rest [] :=
    .mark _ rfl h.space h.settled
  have hlist : Takes (Ddl.list Ddl.keyPart) (before ++ ['(']) (names n ns) (')' :: (gap ++ rest))
      ts := by simpa [names] using hts
  obtain ⟨stop, hphrase⟩ := (hopen.seq_of_eq (hlist.seq hclose) (by simp) rfl).phrase .keyParts
  refine ⟨stop, ts, by simpa [Ddl.keyParts] using hphrase, by simpa [names] using hsays⟩

/-! ## Keys -/

/-- What the members of a key and what ends it stand as in the grammar. -/
def keyTail : Expr := .opt Ddl.indexType >> Ddl.keyParts >> .many Ddl.indexOption

theorem takes_keyTail (n : Name) (ns : List Name) (before : List Char) {gap rest : List Char}
    (h : AfterItem gap rest) :
    ∃ stop ts, Takes keyTail before ('(' :: (names n ns ++ ')' :: gap)) rest
        [.node .keyParts (width before) stop ts]
      ∧ List.Forall₂ (MemberSays (before ++ ('(' :: (names n ns ++ ')' :: (gap ++ rest)))))
        (n :: ns) ts := by
  obtain ⟨stop, ts, hparts, hsays⟩ := takes_keyParts n ns before h.toParted
  have hopen : Heads [""] ('(' :: (names n ns ++ ')' :: gap) ++ rest) := .of_mark _ (by decide)
  have htype : Takes (.opt Ddl.indexType) before [] ('(' :: (names n ns ++ ')' :: gap) ++ rest) [] := by
    have husing := found_kw_eq_none before hopen (by decide) (k := .using) (by decide)
    refine .opt_none _ ?_ (settled_cons _ (by decide) (by decide))
    simp only [Ddl.indexType, andThen_eq, found, husing, Option.bind_none, Option.map_none]
  have hoptions : Takes (.many Ddl.indexOption) (before ++ ('(' :: (names n ns ++ ')' :: gap))) []
      rest [] := by
    have hnone : found Ddl.indexOption
        (.place (before ++ ('(' :: (names n ns ++ ')' :: gap))) rest) = none := by
      simp (disch := decide) [Ddl.indexOption, Ddl.indexType, Ddl.visibility, found,
        found_kw_eq_none_of_no_word _ h.heads]
    exact .many_none _ hnone h.settled
  refine ⟨stop, ts, ?_, hsays⟩
  simpa [keyTail] using htype.seq_of_eq (hparts.seq hoptions) (by simp) (by simp)

theorem found_using_eq_none (before cs : List Char) :
    found (Ddl.kw .using) (.place before ('k' :: cs)) = none := by
  simp [Ddl.kw_eq, Keyword.words, Keyword.spelling, found, Cursor.advance?, Cursor.place,
    Scan.keyword, Scan.chain, Scan.first, Scan.either, Scan.word, List.isPrefixOf?]

/-- The name of a key, with the blank that follows it. -/
theorem takes_indexName (label : Nat) (before : List Char) {rest : List Char}
    (h : Settled rest) :
    ∃ stop ts, Takes (.opt Ddl.indexName) before ('k' :: '_' :: (toString label).toList ++ [' ']) rest
      [.node .indexName (width before) stop ts] := by
  obtain ⟨-, hdigits⟩ := toString_nat_digits label
  have hident : ∀ c ∈ 'k' :: '_' :: (toString label).toList, Scan.isIdentChar c = true := by
    intro c hc
    simp only [List.mem_cons] at hc
    rcases hc with rfl | rfl | hc
    · decide
    · decide
    · exact Scan.isIdentChar_of_isDigit (hdigits c hc)
  have hblank : Parted [' '] rest := .blank h
  have hnever : Takes (.never (Ddl.kw .using)) before []
      ('k' :: '_' :: (toString label).toList ++ [' '] ++ rest) [] :=
    .never _ (found_using_eq_none before _) (settled_cons _ (by decide) (by decide))
  have hname : Takes Ddl.identifier before ('k' :: '_' :: (toString label).toList ++ [' ']) rest _ :=
    .of_found (found_bare before _ (by simp) hident hblank.endsWord).1 hblank
  obtain ⟨stop, ht⟩ := (hnever.seq_of_eq hname rfl (by simp)).phrase .indexName
  exact ⟨stop, _, by simpa [Ddl.indexName] using Takes.opt ht⟩

/-- What the tree of a key says in the whole text: its kind and the names of its members. -/
def KeySays (whole : List Char) (kind : KeyKind) (members : List Name) (t : Tree) : Prop :=
  t.rule = .tableConstraint
    ∧ (keyOutline? t).map (fun key => (key.1, key.2.map (GoScaffold.nameAt whole)))
      = some (kind, members.map (·.text))

theorem members_eq {whole : List Char} {members : List Name} {ts : List Tree}
    (h : List.Forall₂ (MemberSays whole) members ts) :
    (ts.filterMap (partSpan? · .identifier)).map (GoScaffold.nameAt whole)
      = members.map (·.text) := by
  induction h with
  | nil => rfl
  | @cons n t ns ts hsays _ ih =>
    obtain ⟨span, hspan, hname⟩ := Option.map_eq_some_iff.1 hsays
    simp only [List.filterMap_cons, hspan, List.map_cons, hname, ih]

/-- A tree of a key definition: what leads the members does not look like members. -/
def IsKeyTree (whole : List Char) (rule : Rule) (members : List Name) (t : Tree) : Prop :=
  ∃ a b c d lead ts, t = .node rule a b (lead ++ [.node .keyParts c d ts])
    ∧ (∀ u ∈ lead, u.rule ≠ .keyParts) ∧ List.Forall₂ (MemberSays whole) members ts

theorem IsKeyTree.says {whole : List Char} {rule : Rule} {members : List Name} {t : Tree}
    (h : IsKeyTree whole rule members t) {kind : KeyKind} (hkind : keyKind? rule = some kind)
    (a b : Nat) : KeySays whole kind members (.node .tableConstraint a b [t]) := by
  obtain ⟨c, d, e, f, lead, ts, rfl, hlead, hts⟩ := h
  have hrule : rule ≠ .constraintName := by
    rintro rfl
    simp [keyKind?] at hkind
  have hfind : lead.find? (fun t => t.rule == .keyParts) = none := by
    simpa [List.find?_eq_none] using hlead
  have hparts : (Grammar.Tree.node rule c d (lead ++ [.node .keyParts e f ts])).child? .keyParts
      = some (.node .keyParts e f ts) := by
    rw [Tree.child?, Tree.children, List.find?_append, hfind]
    rfl
  refine ⟨rfl, ?_⟩
  simp [keyOutline?, Tree.children, Tree.rule, hrule, hkind, hparts, ← members_eq hts]

section

variable (label : Nat) (n : Name) (ns : List Name) (before : List Char) {gap rest : List Char}

/-- The members of a key in parentheses, with what follows them. -/
def membersText (gap : List Char) : List Char := '(' :: (names n ns ++ ')' :: gap)

theorem heads_blank (w : String) (cs : List Char) : Heads [w] (w.toList ++ ' ' :: cs) :=
  ⟨w, by simp, ' ' :: cs, rfl, by simp [EndsWord]; decide⟩

/-- A keyword with the blank that follows it. -/
theorem takes_word {before rest : List Char} (k : Keyword) {w : String}
    (hw : w = k.spelling ++ " ") (h : Settled rest) :
    Takes (Ddl.kw k) before w.toList rest
      [.node (.keyword k) (width before) (width before + width k.spelling.toList) []] :=
  (Takes.kw before k (.blank h)).of_eq (by simp [hw])

theorem takes_primaryKeyDef (h : AfterItem gap rest) :
    ∃ t, Takes Ddl.primaryKeyDef before ("PRIMARY KEY ".toList ++ membersText n ns gap) rest [t]
      ∧ IsKeyTree (before ++ ("PRIMARY KEY ".toList ++ membersText n ns (gap ++ rest)))
        .primaryKeyDef (n :: ns) t := by
  obtain ⟨c, ts, htail, hsays⟩ := takes_keyTail n ns (before ++ "PRIMARY KEY ".toList) h
  have hkey : Takes (Ddl.kw .key) (before ++ "PRIMARY ".toList) "KEY ".toList
      (membersText n ns gap ++ rest) _ :=
    takes_word .key rfl (settled_cons _ (by decide) (by decide))
  have hprimary : Takes (Ddl.kw .primary) before "PRIMARY ".toList
      ("KEY ".toList ++ membersText n ns gap ++ rest) _ :=
    takes_word .primary rfl (settled_cons _ (by decide) (by decide))
  obtain ⟨stop, ht⟩ := (hprimary.seq (hkey.seq_of_eq htail rfl (by simp))).phrase .primaryKeyDef
  refine ⟨_, ht.of_eq (by simp [membersText]), _, _, _, _, [_, _], _, rfl, ?_,
    by simpa [membersText] using hsays⟩
  simp [Tree.rule]

/-- The name of a key and what follows it. -/
theorem takes_namedTail (h : AfterItem gap rest) :
    ∃ a b c us ts, Takes (.opt Ddl.indexName >> keyTail) before
        ('k' :: '_' :: ((toString label).toList ++ ' ' :: membersText n ns gap)) rest
        [.node .indexName (width before) a us, .node .keyParts b c ts]
      ∧ List.Forall₂ (MemberSays (before
          ++ 'k' :: '_' :: ((toString label).toList ++ ' ' :: membersText n ns (gap ++ rest))))
        (n :: ns) ts := by
  obtain ⟨c, ts, htail, hsays⟩ :=
    takes_keyTail n ns (before ++ ('k' :: '_' :: (toString label).toList ++ [' '])) h
  obtain ⟨a, us, hindex⟩ := takes_indexName label before
    (settled_cons (names n ns ++ ')' :: gap ++ rest) (by decide : Scan.isSpace '(' = false) (by decide))
  exact ⟨a, _, c, us, ts, (hindex.seq htail).of_eq (by simp [membersText]),
    by simpa [membersText] using hsays⟩

theorem takes_uniqueKeyDef (h : AfterItem gap rest) :
    ∃ t, Takes Ddl.uniqueKeyDef before ("UNIQUE KEY k_".toList
        ++ ((toString label).toList ++ ' ' :: membersText n ns gap)) rest [t]
      ∧ IsKeyTree (before ++ ("UNIQUE KEY k_".toList
        ++ ((toString label).toList ++ ' ' :: membersText n ns (gap ++ rest)))) .uniqueKeyDef
        (n :: ns) t := by
  obtain ⟨a, b, c, us, ts, hname, hsays⟩ :=
    takes_namedTail label n ns (before ++ "UNIQUE KEY ".toList) h
  have hkey : Takes (.opt (Ddl.kw .key <|> Ddl.kw .index)) (before ++ "UNIQUE ".toList) "KEY ".toList
      ('k' :: '_' :: ((toString label).toList ++ ' ' :: membersText n ns gap) ++ rest) _ :=
    .opt (.alt_left (takes_word .key rfl (settled_cons _ (by decide) (by decide))))
  have hunique : Takes (Ddl.kw .unique) before "UNIQUE ".toList ("KEY ".toList
      ++ 'k' :: '_' :: ((toString label).toList ++ ' ' :: membersText n ns gap) ++ rest) _ :=
    takes_word .unique rfl (settled_cons _ (by decide) (by decide))
  obtain ⟨stop, ht⟩ := (hunique.seq (hkey.seq_of_eq hname rfl (by simp))).phrase .uniqueKeyDef
  refine ⟨_, ht.of_eq (by simp), _, _, _, _, [_, _, _], _, rfl, ?_, by simpa using hsays⟩
  simp [Tree.rule]

theorem takes_indexDef (h : AfterItem gap rest) :
    ∃ t, Takes Ddl.indexDef before ("KEY k_".toList
        ++ ((toString label).toList ++ ' ' :: membersText n ns gap)) rest [t]
      ∧ IsKeyTree (before ++ ("KEY k_".toList
        ++ ((toString label).toList ++ ' ' :: membersText n ns (gap ++ rest)))) .indexDef (n :: ns)
        t := by
  obtain ⟨a, b, c, us, ts, hname, hsays⟩ := takes_namedTail label n ns (before ++ "KEY ".toList) h
  have hkey : Takes (Ddl.kw .key <|> Ddl.kw .index) before "KEY ".toList
      ('k' :: '_' :: ((toString label).toList ++ ' ' :: membersText n ns gap) ++ rest) _ :=
    .alt_left (takes_word .key rfl (settled_cons _ (by decide) (by decide)))
  have hkind : Takes (.opt (Ddl.kw .fulltext <|> Ddl.kw .spatial)) before [] ("KEY ".toList
      ++ 'k' :: '_' :: ((toString label).toList ++ ' ' :: membersText n ns gap) ++ rest) [] := by
    have hkw {k : Keyword} (hk : ∀ u ∈ k.words, u ∉ ["KEY"]) :=
      found_kw_eq_none before (heads_blank "KEY" ('k' :: '_' :: ((toString label).toList
        ++ ' ' :: membersText n ns gap) ++ rest)) (by decide) hk
    refine .opt_none _ ?_ (settled_cons _ (by decide) (by decide))
    have hfulltext := hkw (k := .fulltext) (by decide)
    have hspatial := hkw (k := .spatial) (by decide)
    simp only [orElse_eq, found]
    exact Option.or_eq_none_iff.2 ⟨hfulltext, hspatial⟩
  obtain ⟨stop, ht⟩ := (hkind.seq_of_eq (hkey.seq hname) rfl (by simp)).phrase .indexDef
  refine ⟨_, ht.of_eq (by simp), _, _, _, _, [_, _], _, rfl, ?_, by simpa using hsays⟩
  simp [Tree.rule]

theorem found_constraintName_eq_none {words : List String} {text : List Char}
    (h : Heads words text)
    (hcapital : ∀ w ∈ words, ∀ c ∈ w.toList, c.toUpper = c ∧ Scan.isIdentChar c = true)
    (hwords : ∀ u ∈ Keyword.constraint.words, u ∉ words) :
    found Ddl.constraintName (.place before text) = none := by
  simp [Ddl.constraintName, found, found_kw_eq_none before h hcapital hwords]

theorem found_primaryKeyDef_eq_none {words : List String} {text : List Char}
    (h : Heads words text)
    (hcapital : ∀ w ∈ words, ∀ c ∈ w.toList, c.toUpper = c ∧ Scan.isIdentChar c = true)
    (hwords : ∀ u ∈ Keyword.primary.words, u ∉ words) :
    found Ddl.primaryKeyDef (.place before text) = none := by
  simp [Ddl.primaryKeyDef, found, found_kw_eq_none before h hcapital hwords]

/-- What is neither a primary nor a unique key is no constraint with a name. -/
theorem found_named_eq_none {w : String} (hw : w = "" ∨ w = "KEY") {text : List Char}
    (h : Heads [w] text) (hsettled : Settled text) :
    found (.opt Ddl.constraintName
      >> (Ddl.primaryKeyDef <|> Ddl.uniqueKeyDef <|> Ddl.foreignKeyDef <|> Ddl.checkDef))
      (.place before text) = none := by
  have hskip : (Cursor.place before text).skip = .place before text :=
    Cursor.skip_place_of_settled hsettled
  rcases hw with rfl | rfl
  all_goals
    have hkw {k : Keyword} (hk : ∀ u ∈ k.words, u ∉ [_]) :=
      found_kw_eq_none before h (by decide) hk
    simp (disch := decide) [Ddl.constraintName, Ddl.primaryKeyDef, Ddl.uniqueKeyDef,
      Ddl.foreignKeyDef, Ddl.checkDef, found, hskip, hkw]

theorem found_tableConstraint_eq_none {text : List Char} (h : Heads [""] text)
    (hsettled : Settled text) : found Ddl.tableConstraint (.place before text) = none := by
  have hskip : (Cursor.place before text).skip = .place before text :=
    Cursor.skip_place_of_settled hsettled
  have hindex : found Ddl.indexDef (.place before text) = none := by
    simp (disch := decide) [Ddl.indexDef, found, hskip, found_kw_eq_none_of_no_word before h]
  have hnamed := found_named_eq_none before (.inl rfl) h hsettled
  refine found_phrase_eq_none ?_
  rw [orElse_eq, found, hnamed, hindex]
  rfl

/-- A written key is taken as a whole, and its tree says its kind and its members. -/
theorem takes_key (kind : KeyKind) (h : AfterItem gap rest) :
    ∃ t, Takes Ddl.tableConstraint before
        ((keyHead label kind).toList ++ ' ' :: membersText n ns gap) rest [t]
      ∧ KeySays (before ++ ((keyHead label kind).toList ++ ' ' :: membersText n ns (gap ++ rest)))
        kind (n :: ns) t := by
  cases kind with
  | primary =>
    obtain ⟨t, ht, hkey⟩ := takes_primaryKeyDef n ns before h
    have hheads : Heads ["PRIMARY"] ("PRIMARY KEY ".toList ++ membersText n ns gap ++ rest) :=
      heads_blank "PRIMARY" ("KEY ".toList ++ membersText n ns gap ++ rest)
    have hnone : Takes (.opt Ddl.constraintName) before []
        ("PRIMARY KEY ".toList ++ membersText n ns gap ++ rest) [] :=
      .opt_none _ (found_constraintName_eq_none before hheads (by decide) (by decide))
        (hheads.settled (by decide))
    obtain ⟨stop, hphrase⟩ :=
      (Takes.alt_left (hnone.seq_of_eq (.alt_left ht) rfl (by simp))).phrase .tableConstraint
    refine ⟨_, hphrase.of_eq (by simp [keyHead]), ?_⟩
    simpa [keyHead] using hkey.says rfl _ _
  | unique =>
    obtain ⟨t, ht, hkey⟩ := takes_uniqueKeyDef label n ns before h
    have hheads : Heads ["UNIQUE"] ("UNIQUE KEY k_".toList
        ++ ((toString label).toList ++ ' ' :: membersText n ns gap) ++ rest) :=
      heads_blank "UNIQUE" ("KEY k_".toList
        ++ ((toString label).toList ++ ' ' :: membersText n ns gap) ++ rest)
    have hprimary := found_primaryKeyDef_eq_none before hheads (by decide) (by decide)
    have hnone : Takes (.opt Ddl.constraintName) before [] ("UNIQUE KEY k_".toList
        ++ ((toString label).toList ++ ' ' :: membersText n ns gap) ++ rest) [] :=
      .opt_none _ (found_constraintName_eq_none before hheads (by decide) (by decide))
        (hheads.settled (by decide))
    obtain ⟨stop, hphrase⟩ :=
      (Takes.alt_left (hnone.seq_of_eq (.alt_right hprimary (.alt_left ht)) rfl
        (by simp))).phrase .tableConstraint
    refine ⟨_, hphrase.of_eq (by simp [keyHead]), ?_⟩
    simpa [keyHead] using hkey.says rfl _ _
  | index =>
    obtain ⟨t, ht, hkey⟩ := takes_indexDef label n ns before h
    have hheads : Heads ["KEY"] ("KEY k_".toList
        ++ ((toString label).toList ++ ' ' :: membersText n ns gap) ++ rest) :=
      heads_blank "KEY" ("k_".toList
        ++ ((toString label).toList ++ ' ' :: membersText n ns gap) ++ rest)
    have hnamed := found_named_eq_none before (.inr rfl) hheads (hheads.settled (by decide))
    obtain ⟨stop, hphrase⟩ := (Takes.alt_right hnamed ht).phrase .tableConstraint
    refine ⟨_, hphrase.of_eq (by simp [keyHead]), ?_⟩
    simpa [keyHead] using hkey.says rfl _ _

end

end GoScaffold.Declaration
