import GoScaffold.Proofs.Grammar.Mirrored

set_option autoImplicit false

/-! # Declarations that differ in their spacing

The rules of the grammar of table declarations, one by one, are mirrored. -/

namespace GoScaffold.Grammar.Ddl

open Text

open Zone (Entered)

open Grammar.Expr (Advances Balks Passes found found_token)

variable {S : Zone → Prop} {e a b : Expr} {sticks moves : Prop}

/-- Expressions that are mirrored in texts that differ in their spacing alone. -/
abbrev Mirrored (sticks moves : Prop) (S T : Zone → Prop) (e : Expr) : Prop :=
  Expr.Mirrored respaced sticks moves S T e

/-! ## Tokens -/

/-- A scanner that takes the same off both texts leads to one pair of places. -/
theorem advances_of_agrees {s : Scan} {z : Zone} {p : Spot} (h : s.Agrees z p.cs p.cs')
    (hbites : moves → s.Bites) : Advances respaced moves z p s := by
  cases h with
  | fails here there => exact .fails here there
  | takes w v v' split split' here there rest => exact .takes split split' here there hbites rest

/-- A scanner that takes the same off both texts where no spacing stands first, as a token. -/
theorem mirrored_token {r : Rule} {s : Scan}
    (h : ∀ ⦃z : Zone⦄ ⦃cs cs' : List Char⦄, S z → Respaced z cs cs' → Settled cs → s.Agrees z cs cs')
    (hbites : moves → s.Bites) : Mirrored sticks moves S S (.token r s) :=
  fun _ _ hz hp hsettled => Or.inl
    (Expr.Mirrored.alike_token (advances_of_agrees (h hz hp hsettled.1) hbites) hz)

theorem mirrored_steady_token {r : Rule} {s : Scan} (h : s.Steady)
    (hbites : moves → s.Bites) : Mirrored sticks moves S S (.token r s) :=
  mirrored_token (fun _ _ _ _ hp _ => h hp) hbites

theorem ne_nil_of_mem_words (k : Keyword) : ∀ u ∈ k.words, u.toList ≠ [] := by
  cases k <;> decide

theorem exists_word_of_first {words : List String} {cs u m : List Char}
    (h : Scan.first (words.map fun w => Scan.word w.toList) cs = some (u, m)) :
    ∃ w ∈ words, u = w.toList := by
  induction words with
  | nil => simp [Scan.first] at h
  | cons w words ih =>
    rw [List.map_cons, Scan.first, Scan.either, Option.or_eq_some_iff] at h
    rcases h with h | ⟨-, h⟩
    · exact ⟨w, List.mem_cons_self .., (Scan.word_eq_some.1 h).1⟩
    · obtain ⟨v, hv, hu⟩ := ih h
      exact ⟨v, List.mem_cons_of_mem _ hv, hu⟩

theorem keyword_bites (k : Keyword) : (Scan.keyword k.words).Bites := by
  intro cs rest h
  obtain ⟨u, m, v, hu, -, huv⟩ := Scan.chain_eq_some.1 h
  obtain ⟨rfl, rfl⟩ := List.append_eq_nil_iff.1 huv.symm
  obtain ⟨w, hw, hnil⟩ := exists_word_of_first hu
  exact ne_nil_of_mem_words k w hw hnil.symm

theorem mirrored_kw (k : Keyword) : Mirrored sticks True S S (kw k) := by
  rw [kw_eq]
  refine mirrored_steady_token (Scan.steady_keyword fun u hu c hc => ?_) fun _ => keyword_bites k
  rw [isInked, k.isIdentChar_of_mem_words u hu c hc, Bool.true_or]

theorem mark_bites (c : Char) : (Scan.word [c]).Bites :=
  fun _ _ h => absurd (Scan.word_eq_some.1 h).1 (by simp)

/-- A mark keeps zones, but that the first parenthesis enters the list of columns. -/
theorem mirrored_mark {c : Char} {T : Zone → Prop} (hnext : ∀ z, S z → T (z.next c))
    (hc : c.isAlpha = false) (hquote : isQuote c = false) : Mirrored sticks True S T (mark c) := by
  intro z p hz hp hsettled
  -- The zone after the mark is the one that the places are paired in.
  have h : (Scan.word [c]).Agrees (z.next c) p.cs p.cs' := Scan.mark_agrees hc hquote hp hsettled.1
  exact Or.inl (Expr.Mirrored.alike_silent (advances_of_agrees h fun _ => mark_bites c) (hnext z hz))

theorem bareIdent_bites : Scan.bareIdent.Bites := by
  intro cs rest h
  obtain ⟨u, m, v, hu, -, huv⟩ := Scan.chain_eq_some.1 h
  obtain ⟨rfl, rfl⟩ := List.append_eq_nil_iff.1 huv.symm
  cases cs with
  | nil => simp [Scan.one] at hu
  | cons c cs => simp [Scan.one] at hu

theorem mirrored_bareIdent : Mirrored sticks True S S bareIdent :=
  mirrored_steady_token Scan.steady_bareIdent fun _ => bareIdent_bites

theorem mirrored_typeName : Mirrored sticks False S S typeName :=
  mirrored_steady_token Scan.steady_typeName False.elim

theorem mirrored_identifier : Mirrored sticks False S S identifier :=
  mirrored_token (fun _ _ _ _ h hcs => Scan.identifier_agrees h hcs) False.elim

theorem mirrored_stringLiteral : Mirrored sticks False S S stringLiteral :=
  mirrored_token (fun _ _ _ _ h hcs => Scan.stringLiteral_agrees h hcs) False.elim

theorem mirrored_bitLiteral : Mirrored sticks False S S bitLiteral :=
  mirrored_token (fun _ _ _ _ h hcs => Scan.bitLiteral_agrees h hcs) False.elim

theorem mirrored_number : Mirrored sticks False S S number :=
  mirrored_steady_token Scan.steady_number False.elim

theorem mirrored_signedNumber : Mirrored sticks False S S signedNumber :=
  mirrored_steady_token Scan.steady_signedNumber False.elim

theorem mirrored_parenExpr : Mirrored sticks False Entered Entered parenExpr :=
  mirrored_token (fun _ _ _ hz h hcs => Scan.parenExpr_agrees h hcs hz) False.elim

theorem mirrored_endOfText : Mirrored sticks False S S endOfText :=
  mirrored_token (fun _ _ _ _ h hcs => Scan.atEnd_agrees h (h.head?_eq hcs)) False.elim

/-- The current time may get stuck at a parenthesis with a comment before it. -/
theorem mirrored_currentTimestamp : Mirrored True False Entered Entered currentTimestamp := by
  intro z p hz hp hsettled
  rcases Scan.currentTimestamp_agrees hp hz with h | ⟨w, gap, more, hcs, hgap, hscan⟩
  · exact Or.inl (Expr.Mirrored.alike_token (advances_of_agrees h False.elim) hz)
  · rw [hcs] at hscan
    have hfound := found_token .currentTimestamp p.before hscan
    rw [← hcs] at hfound
    refine Or.inr ⟨trivial, _, _, raise more, hfound, ?_⟩
    rw [hgap.skip]
    rfl

/-! ## Where a parenthesis stands first -/

theorem balks_kw (k : Keyword) : Balks (kw k) := by
  intro c more hc
  have hnone : Scan.keyword k.words ([] ++ '(' :: more) = none := by
    refine Scan.keyword_eq_none (by simp) (by simp [EndsWord]; decide) fun u hu => ?_
    exact ⟨k.isIdentChar_of_mem_words u hu, ne_nil_of_mem_words k u hu⟩
  rw [kw_eq]
  simp only [List.nil_append] at hnone
  simp [found, Cursor.advance?, hc, hnone]

theorem balks_mark {d : Char} (hd : d ≠ '(') : Balks (mark d) := by
  intro c more hc
  simp [mark, found, Cursor.advance?, hc, Scan.word, List.isPrefixOf?, hd]

/-! ## Phrases -/

open Expr.Mirrored

section

variable (hS : ∀ z c, S z → S (z.next c))

include hS

theorem mirrored_list (h : Mirrored False moves S S e) : Mirrored False moves S S (list e) :=
  seq_left h (many (seq_left (mirrored_mark (fun z => hS z ',') rfl rfl) h) False.elim)

theorem mirrored_tableName : Mirrored False False S S tableName :=
  phrase rfl (seq_left mirrored_identifier
    (opt (seq_left (mirrored_mark (fun z => hS z '.') rfl rfl) mirrored_identifier)))

end

theorem mirrored_ifNotExists : Mirrored False True S S ifNotExists :=
  phrase rfl (seq_left (mirrored_kw _) (seq_left (mirrored_kw _) (mirrored_kw _)))

/-- Within the list of columns and after it a mark keeps the zone there. -/
theorem mirrored_innerMark {c : Char} (hc : c.isAlpha = false) (hquote : isQuote c = false) :
    Mirrored sticks True Entered Entered (mark c) :=
  mirrored_mark (fun _ h => h.next c) hc hquote

theorem mirrored_equals : Mirrored False False Entered Entered (.opt (mark '=')) :=
  opt (mirrored_innerMark rfl rfl)

theorem mirrored_collateClause : Mirrored False True Entered Entered collateClause :=
  phrase rfl (seq_left (mirrored_kw _)
    (seq_left mirrored_equals (alt mirrored_identifier mirrored_stringLiteral)))

theorem mirrored_charsetClause : Mirrored False True Entered Entered charsetClause :=
  phrase rfl (seq_left (alt (seq_left (mirrored_kw _) (mirrored_kw _)) (mirrored_kw _))
    (seq_left mirrored_equals (alt mirrored_identifier mirrored_stringLiteral)))

theorem mirrored_checkDef : Mirrored False True Entered Entered checkDef :=
  phrase rfl (seq_left (mirrored_kw _) (seq_left mirrored_parenExpr
    (opt (seq_left (opt (mirrored_kw _)) (mirrored_kw _)))))

theorem mirrored_visibility : Mirrored False True Entered Entered visibility :=
  phrase rfl (alt (mirrored_kw _) (mirrored_kw _))

theorem mirrored_keyPart : Mirrored False False Entered Entered keyPart :=
  phrase rfl (seq_left mirrored_identifier
    (seq_left (opt (seq_left (mirrored_innerMark rfl rfl)
      (seq_left mirrored_number (mirrored_innerMark rfl rfl))))
      (opt (alt (mirrored_kw _) (mirrored_kw _)))))

theorem mirrored_keyParts : Mirrored False True Entered Entered keyParts :=
  phrase rfl (seq_left (mirrored_innerMark rfl rfl)
    (seq_left (mirrored_list (fun _ c h => h.next c) mirrored_keyPart) (mirrored_innerMark rfl rfl)))

theorem mirrored_refAction : Mirrored False True Entered Entered refAction :=
  phrase rfl (alt (mirrored_kw _) (alt (mirrored_kw _) (alt (seq_left (mirrored_kw _) (mirrored_kw _))
    (alt (seq_left (mirrored_kw _) (mirrored_kw _)) (seq_left (mirrored_kw _) (mirrored_kw _))))))

theorem mirrored_references : Mirrored False True Entered Entered references :=
  phrase rfl (seq_left (mirrored_kw _)
    (seq_left (mirrored_tableName fun _ c h => h.next c)
      (seq_left mirrored_keyParts
        (seq_left (opt (seq_left (mirrored_kw _) mirrored_bareIdent))
          (many (seq_left (mirrored_kw _)
            (seq_left (alt (mirrored_kw _) (mirrored_kw _)) mirrored_refAction)) False.elim)))))

/-! ## Columns -/

theorem mirrored_typeArg : Mirrored False False Entered Entered typeArg :=
  alt mirrored_signedNumber (alt mirrored_stringLiteral mirrored_identifier)

theorem mirrored_typeArgs : Mirrored False True Entered Entered typeArgs :=
  phrase rfl (seq_left (mirrored_innerMark rfl rfl)
    (seq_left (opt (mirrored_list (fun _ c h => h.next c) mirrored_typeArg))
      (mirrored_innerMark rfl rfl)))

theorem mirrored_typeModifier : Mirrored False True Entered Entered typeModifier :=
  alt (mirrored_kw _) (alt (mirrored_kw _) (alt (mirrored_kw _) (alt (mirrored_kw _)
    (alt mirrored_charsetClause mirrored_collateClause))))

theorem mirrored_dataType : Mirrored False False Entered Entered dataType :=
  phrase rfl (seq_left mirrored_typeName (seq_left (opt (mirrored_kw _))
    (seq_left (opt (mirrored_kw _)) (seq_left (opt mirrored_typeArgs)
      (many mirrored_typeModifier False.elim)))))

theorem single_defaultValue :
    Expr.Single (currentTimestamp <|> parenExpr <|> signedNumber <|> stringLiteral <|> bitLiteral
      <|> kw .null <|> kw .true_ <|> kw .false_ <|> bareIdent) := by
  have hkw (k : Keyword) : Expr.Single (kw k) := .token rfl
  exact .alt (.token rfl) (.alt (.token rfl) (.alt (.token rfl) (.alt (.token rfl) (.alt (.token rfl)
    (.alt (hkw _) (.alt (hkw _) (.alt (hkw _) (.token rfl))))))))

theorem mirrored_defaultValue : Mirrored True False Entered Entered defaultValue := by
  have hkw (k : Keyword) : Mirrored True False Entered Entered (kw k) :=
    (mirrored_kw k).mono id False.elim
  have hbare : Mirrored True False Entered Entered bareIdent := mirrored_bareIdent.mono id False.elim
  exact phrase_single single_defaultValue (alt mirrored_currentTimestamp (alt mirrored_parenExpr
    (alt mirrored_signedNumber (alt mirrored_stringLiteral (alt mirrored_bitLiteral (alt (hkw _)
      (alt (hkw _) (alt (hkw _) hbare))))))))

theorem mirrored_defaultClause : Mirrored True True Entered Entered defaultClause :=
  phrase rfl (seq_left (mirrored_kw _) mirrored_defaultValue)

theorem mirrored_onUpdate : Mirrored True True Entered Entered onUpdate :=
  phrase rfl (seq_left (mirrored_kw _) (seq_left (mirrored_kw _) mirrored_currentTimestamp))

theorem mirrored_generatedClause : Mirrored False True Entered Entered generatedClause :=
  phrase rfl (seq_right (opt (seq_left (mirrored_kw _) (mirrored_kw _)))
    (seq_left (mirrored_kw _) (seq_left mirrored_parenExpr
      (opt (alt (mirrored_kw _) (mirrored_kw _))))))

theorem mirrored_primaryAttr : Mirrored False True Entered Entered primaryAttr :=
  phrase rfl (seq_right (opt (mirrored_kw _)) (mirrored_kw _))

theorem mirrored_uniqueAttr : Mirrored False True Entered Entered uniqueAttr :=
  phrase rfl (seq_left (mirrored_kw _) (opt (mirrored_kw _)))

theorem mirrored_commentAttr : Mirrored False True Entered Entered commentAttr :=
  phrase rfl (seq_left (mirrored_kw _) mirrored_stringLiteral)

/-- A clause that never gets stuck, among those that may. -/
theorem sticky (h : Mirrored False moves S S e) : Mirrored True moves S S e :=
  h.mono False.elim id

theorem mirrored_columnAttr : Mirrored True True Entered Entered columnAttr :=
  alt (sticky (phrase rfl (seq_left (mirrored_kw _) (mirrored_kw _))))
    (alt (phrase rfl (mirrored_kw _)) (alt mirrored_defaultClause (alt (phrase rfl (mirrored_kw _))
      (alt mirrored_onUpdate (alt (sticky mirrored_primaryAttr) (alt (sticky mirrored_uniqueAttr)
        (alt (sticky mirrored_commentAttr) (alt (sticky mirrored_collateClause)
          (alt (sticky mirrored_charsetClause) (alt (sticky mirrored_generatedClause)
            (alt (sticky mirrored_checkDef) (alt (sticky mirrored_references)
              (alt (sticky mirrored_visibility)
                (alt (sticky (phrase rfl (seq_left (mirrored_kw _) mirrored_bareIdent)))
                  (alt (sticky (phrase rfl (seq_left (mirrored_kw _) mirrored_bareIdent)))
                    (sticky (phrase rfl (seq_left (mirrored_kw _) mirrored_number))))))))))))))))))

/-- Each attribute of a column begins with a keyword. -/
theorem balks_columnAttr : Balks columnAttr := by
  have hphrase (r : Rule) (k : Keyword) (b : Expr) : Balks (.phrase r (kw k >> b)) :=
    .phrase (.seq (balks_kw k))
  have hone (r : Rule) (k : Keyword) : Balks (.phrase r (kw k)) := .phrase (balks_kw k)
  have hprimary : Balks primaryAttr := .phrase (.opt_seq (balks_kw _) (balks_kw _))
  have hcharset : Balks charsetClause :=
    .phrase (.seq (.alt (.seq (balks_kw _)) (balks_kw _)))
  have hgenerated : Balks generatedClause :=
    .phrase (.opt_seq (.seq (balks_kw _)) (.seq (balks_kw _)))
  have hvisibility : Balks visibility := .phrase (.alt (balks_kw _) (balks_kw _))
  exact .alt (hphrase _ _ _) (.alt (hone _ _) (.alt (hphrase _ _ _) (.alt (hone _ _)
    (.alt (hphrase _ _ _) (.alt hprimary (.alt (hphrase _ _ _) (.alt (hphrase _ _ _)
      (.alt (hphrase _ _ _) (.alt hcharset (.alt hgenerated (.alt (hphrase _ _ _)
        (.alt (hphrase _ _ _) (.alt hvisibility (.alt (hphrase _ _ _) (.alt (hphrase _ _ _)
          (hphrase _ _ _))))))))))))))))

theorem mirrored_columnDef : Mirrored True False Entered Entered columnDef :=
  phrase rfl (seq_left mirrored_identifier (seq_left mirrored_dataType
    (many mirrored_columnAttr fun _ => balks_columnAttr)))

/-! ## Table constraints -/

theorem mirrored_indexName : Mirrored False False Entered Entered indexName :=
  phrase rfl (seq_right (never (mirrored_kw _)) mirrored_identifier)

theorem mirrored_indexType : Mirrored False True Entered Entered indexType :=
  phrase rfl (seq_left (mirrored_kw _) (alt (mirrored_kw _) (mirrored_kw _)))

theorem mirrored_indexOption : Mirrored False True Entered Entered indexOption :=
  alt mirrored_indexType (alt (seq_left (mirrored_kw _) mirrored_stringLiteral)
    (alt (seq_left (mirrored_kw _) (seq_left mirrored_equals mirrored_number))
      (alt (seq_left (mirrored_kw _) (seq_left (mirrored_kw _) mirrored_identifier))
        mirrored_visibility)))

theorem mirrored_constraintName : Mirrored False True Entered Entered constraintName :=
  phrase rfl (seq_left (mirrored_kw _) (opt (seq_right
    (never (alt (mirrored_kw _) (alt (mirrored_kw _) (alt (mirrored_kw _) (mirrored_kw _)))))
    mirrored_identifier)))

/-- The places of a key and what follows them. -/
theorem mirrored_keyEnd : Mirrored False True Entered Entered (keyParts >> .many indexOption) :=
  seq_left mirrored_keyParts (many mirrored_indexOption False.elim)

theorem mirrored_primaryKeyDef : Mirrored False True Entered Entered primaryKeyDef :=
  phrase rfl (seq_left (mirrored_kw _) (seq_left (mirrored_kw _)
    (seq_left (opt mirrored_indexType) mirrored_keyEnd)))

theorem mirrored_uniqueKeyDef : Mirrored False True Entered Entered uniqueKeyDef :=
  phrase rfl (seq_left (mirrored_kw _) (seq_left (opt (alt (mirrored_kw _) (mirrored_kw _)))
    (seq_left (opt mirrored_indexName) (seq_left (opt mirrored_indexType) mirrored_keyEnd))))

theorem mirrored_indexDef : Mirrored False True Entered Entered indexDef :=
  phrase rfl (seq_right (opt (alt (mirrored_kw _) (mirrored_kw _)))
    (seq_left (alt (mirrored_kw _) (mirrored_kw _)) (seq_left (opt mirrored_indexName)
      (seq_left (opt mirrored_indexType) mirrored_keyEnd))))

theorem mirrored_foreignKeyDef : Mirrored False True Entered Entered foreignKeyDef :=
  phrase rfl (seq_left (mirrored_kw _) (seq_left (mirrored_kw _)
    (seq_left (opt mirrored_indexName) (seq_left mirrored_keyParts mirrored_references))))

theorem mirrored_tableConstraint : Mirrored False True Entered Entered tableConstraint :=
  phrase rfl (alt (seq_right (opt mirrored_constraintName)
      (alt mirrored_primaryKeyDef (alt mirrored_uniqueKeyDef (alt mirrored_foreignKeyDef
        mirrored_checkDef))))
    mirrored_indexDef)

/-! ## Table options -/

theorem mirrored_tableComment : Mirrored False True Entered Entered tableComment :=
  phrase rfl (seq_left (mirrored_kw _) (seq_left mirrored_equals mirrored_stringLiteral))

theorem mirrored_optionName : Mirrored False True Entered Entered optionName :=
  phrase rfl (alt (seq_left (mirrored_kw _) (mirrored_kw _))
    (alt (mirrored_kw _) (alt (mirrored_kw _) mirrored_bareIdent)))

theorem mirrored_optionValue : Mirrored False False Entered Entered optionValue :=
  phrase rfl (alt mirrored_stringLiteral (alt mirrored_signedNumber (alt mirrored_parenExpr
    (mirrored_bareIdent.mono id False.elim))))

theorem mirrored_genericOption : Mirrored False True Entered Entered genericOption :=
  phrase rfl (seq_right (opt (mirrored_kw _))
    (seq_left mirrored_optionName (seq_left mirrored_equals mirrored_optionValue)))

theorem mirrored_tableOption : Mirrored False True Entered Entered tableOption :=
  seq_right (opt (mirrored_innerMark rfl rfl)) (alt mirrored_tableComment mirrored_genericOption)

/-! ## The statement -/

theorem mirrored_createDefinition : Mirrored True False Entered Entered createDefinition :=
  alt (sticky (mirrored_tableConstraint.mono id False.elim)) mirrored_columnDef

/-- What follows a definition in the list of them. -/
theorem mirrored_more :
    Mirrored True False Entered Entered (.many (mark ',' >> createDefinition)) :=
  many (seq_left (mirrored_innerMark rfl rfl) mirrored_createDefinition)
    fun _ => .seq (balks_mark (by decide))

theorem mirrored_definitions : Mirrored True False Entered Entered (list createDefinition) :=
  (seq_passes mirrored_createDefinition mirrored_more
    (Balks.many (.seq (balks_mark (by decide))))).mono id False.elim

/-- What follows the list of columns. -/
theorem mirrored_tail : Mirrored False True Entered Entered
    (mark ')' >> .many tableOption >> .opt (mark ';') >> endOfText) :=
  seq_left (mirrored_innerMark rfl rfl) (seq_left (many mirrored_tableOption False.elim)
    (seq_left (opt (mirrored_innerMark rfl rfl)) mirrored_endOfText))

/-- A declaration that is found is found in the text spaced in the other way, and tells the same
there. -/
theorem createTable_alike {p : Spot} (hbefore : p.before = []) (hbefore' : p.before' = [])
    (h : Respaced .head p.cs p.cs') :
    found createTable p.here = none
      ∨ Expr.Alike respaced False Entered p (found createTable p.here) (found createTable p.there) := by
  let Any : Zone → Prop := fun _ => True
  have hany : ∀ z c, Any z → Any (z.next c) := fun _ _ _ => trivial
  have hopen : Mirrored False True Any Entered (mark '(') :=
    mirrored_mark (fun z _ => Zone.entered_opened z) rfl rfl
  -- A list of definitions that is stuck is not closed: the declaration is not found at all.
  have hbody := Expr.Carried.seq_balks mirrored_definitions mirrored_tail
    (.seq (balks_mark (by decide)))
  have hdeclaration : Expr.Carried respaced Any Entered
      (kw .create >> .opt (kw .temporary) >> kw .table >> .opt ifNotExists >> tableName >> mark '('
        >> list createDefinition >> mark ')' >> .many tableOption >> .opt (mark ';')
        >> endOfText) :=
    .seq (mirrored_kw _) (.seq (opt (mirrored_kw _)) (.seq (mirrored_kw _)
      (.seq (opt mirrored_ifNotExists) (.seq (mirrored_tableName hany) (.seq hopen hbody)))))
  exact hdeclaration.start rfl hbefore hbefore' trivial h

end GoScaffold.Grammar.Ddl
