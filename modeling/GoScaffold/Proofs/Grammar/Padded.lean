import GoScaffold.Proofs.Grammar.Firm
import GoScaffold.Proofs.Grammar.MirroredRules
import GoScaffold.Proofs.Grammar.Shapes

set_option autoImplicit false

/-! # Declarations with white space after them

Two texts are matched alike where one has white space after it (`padded`): what follows a place is the
same up to the white space, or nothing follows in either text. An expression of scanners that white
space does not concern is mirrored (`Expr.Firm.mirrored`), by one induction on the expression, and the
grammar of table declarations is one. -/

namespace GoScaffold.Grammar

open Text

/-- White space that may stand after a text. It opens no comment there. -/
structure Pads (core post : List Char) : Prop where
  space : ∀ c ∈ post, Scan.isSpace c = true
  plain : ['-', '-'] <:+ core → post.head? ≠ some ' '

namespace Pads

variable {core post cs gap rest : List Char}

theorem of_suffix (h : Pads core post) (hcs : cs <:+ core) : Pads cs post :=
  ⟨h.space, fun hdashes => h.plain (hdashes.trans hcs)⟩

theorem raise (h : Pads core post) : Pads (raise core) (raise post) where
  space c hc := by
    obtain ⟨d, hd, rfl⟩ := List.mem_map.1 hc
    simpa using h.space d hd
  plain := by
    rintro ⟨front, hdashes⟩ hhead
    obtain ⟨u, v, rfl, -, hv⟩ := List.map_eq_append_iff.1 hdashes.symm
    obtain ⟨w, rfl⟩ := exists_of_raise_eq_cons (d := '-') rfl hv
    obtain ⟨x, rfl⟩ := exists_of_raise_eq_cons (d := '-') rfl (List.cons.inj hv).2
    obtain rfl : x = [] := by simpa using hv
    refine h.plain ⟨u, rfl⟩ ?_
    cases post with
    | nil => simp at hhead
    | cons c post =>
      rw [raise_cons, List.head?_cons, Option.some.injEq, toUpper_eq_iff (d := ' ') rfl] at hhead
      rw [hhead, List.head?_cons]

/-- Spacing with something after it is the same with white space after that. -/
theorem spacing (h : Pads (gap ++ rest) post) (hgap : Spacing gap rest) (hrest : rest ≠ []) :
    Spacing gap (rest ++ post) := by
  have hblanks := Scan.blanksFrom_ahead 0 h.raise.space h.raise.plain
  rw [← Scan.blanks, ← Scan.blanks, hgap, ← raise_append, List.append_assoc] at hblanks
  rw [Spacing, hblanks, if_neg (by simpa [Text.raise] using hrest), raise_append]

/-- Spacing up to the end takes the white space along. -/
theorem spacing_nil (h : Pads gap post) (hgap : Spacing gap []) : Spacing (gap ++ post) [] := by
  have hblanks := Scan.blanksFrom_ahead 0 h.raise.space h.raise.plain
  rw [Spacing, List.append_nil] at hgap
  rw [← Scan.blanks, ← Scan.blanks, hgap, ← raise_append] at hblanks
  rw [Spacing, List.append_nil]
  exact hblanks

end Pads

/-- Every text begins with spacing, perhaps empty. -/
theorem exists_spacing (cs : List Char) : ∃ gap rest, cs = gap ++ rest ∧ Spacing gap rest := by
  obtain ⟨gap, rest, rfl, hgap, hrest⟩ :=
    List.map_eq_append_iff.1 (Scan.blanksFrom_append 0 (raise cs)).symm
  exact ⟨gap, rest, rfl, Prod.ext hgap.symm hrest.symm⟩

/-- What follows is the same up to white space at the end, or nothing follows in either text. -/
def padded {core post : List Char} (h : Pads core post) : Pairing where
  Holds _ p := (p.cs <:+ core ∧ p.cs' = p.cs ++ post) ∨ (p.cs = [] ∧ p.cs' = [])
  exists_skip z p hp := by
    rcases hp with ⟨hcore, hcs'⟩ | hend
    · obtain ⟨gap, rest, hcs, hgap⟩ := exists_spacing p.cs
      have hpads := h.of_suffix hcore
      rw [hcs] at hpads hcs'
      by_cases hrest : rest = []
      · subst hrest
        rw [List.append_nil] at hpads hcs'
        have hgap' := hpads.spacing_nil hgap
        rw [← List.append_nil (gap ++ post)] at hcs'
        refine ⟨gap, gap ++ post, ⟨p.before ++ gap, p.before' ++ (gap ++ post), [], []⟩,
          ⟨rfl, rfl, hcs, hcs'⟩, ?_, ?_, ⟨settled_nil, settled_nil⟩, .inr ⟨rfl, rfl⟩⟩
        · rw [Spot.here, hcs]
          exact hgap.skip p.before
        · rw [Spot.there, hcs']
          exact hgap'.skip p.before'
      · have hgap' := hpads.spacing hgap hrest
        rw [List.append_assoc] at hcs'
        refine ⟨gap, gap, ⟨p.before ++ gap, p.before' ++ gap, rest, rest ++ post⟩,
          ⟨rfl, rfl, hcs, hcs'⟩, ?_, ?_, ⟨hgap.settled, hgap'.settled⟩, .inl ⟨?_, rfl⟩⟩
        · rw [Spot.here, hcs]
          exact hgap.skip p.before
        · rw [Spot.there, hcs']
          exact hgap'.skip p.before'
        · exact (List.suffix_append gap rest).trans (hcs ▸ hcore)
    · have hsettled : p.IsSettled := by
        rw [Spot.IsSettled, hend.1, hend.2]
        exact ⟨settled_nil, settled_nil⟩
      exact ⟨[], [], p, .refl p, Cursor.skip_place_of_settled hsettled.1,
        Cursor.skip_place_of_settled hsettled.2, hsettled, .inr hend⟩

/-! ## Expressions -/

namespace Expr

/-- A match takes something. -/
def Bites : Expr → Prop
  | .silent s | .token _ s => s.Bites
  | .phrase _ e => e.Bites
  | .seq a b => a.Bites ∨ b.Bites
  | .alt a b => a.Bites ∧ b.Bites
  | .start | .opt _ | .many _ | .never _ => False

/-- White space after a text does not concern the scanners of the expression, or they look for the end
of the text. What is repeated takes something. -/
def Firm : Expr → Prop
  | .start => False
  | .silent s | .token _ s => s.Cuts ∧ (s.Firm ∨ s = Scan.atEnd)
  | .phrase r e => (r.isTold = true → e.Single) ∧ e.Firm
  | .seq a b | .alt a b => a.Firm ∧ b.Firm
  | .opt e | .never e => e.Firm
  | .many e => e.Firm ∧ e.Bites

section

variable {a b e : Expr} {r : Rule}

@[simp] theorem bites_phrase : (Expr.phrase r e).Bites ↔ e.Bites := Iff.rfl

@[simp] theorem bites_seq : (Expr.seq a b).Bites ↔ a.Bites ∨ b.Bites := Iff.rfl

@[simp] theorem bites_alt : (Expr.alt a b).Bites ↔ a.Bites ∧ b.Bites := Iff.rfl

@[simp] theorem firm_phrase :
    (Expr.phrase r e).Firm ↔ (r.isTold = true → e.Single) ∧ e.Firm := Iff.rfl

@[simp] theorem firm_seq : (Expr.seq a b).Firm ↔ a.Firm ∧ b.Firm := Iff.rfl

@[simp] theorem firm_alt : (Expr.alt a b).Firm ↔ a.Firm ∧ b.Firm := Iff.rfl

@[simp] theorem firm_opt : (Expr.opt e).Firm ↔ e.Firm := Iff.rfl

@[simp] theorem firm_many : (Expr.many e).Firm ↔ e.Firm ∧ e.Bites := Iff.rfl

@[simp] theorem firm_never : (Expr.never e).Firm ↔ e.Firm := Iff.rfl

end

variable {core post : List Char} {h : Pads core post} {e : Expr} {z : Zone} {p : Spot}

/-- Where no spacing comes next, something follows in both texts or in neither. -/
theorem holds_settled (hp : (padded h).Holds z p) (hsettled : p.IsSettled) :
    (p.cs <:+ core ∧ p.cs' = p.cs ++ post ∧ p.cs ≠ []) ∨ (p.cs = [] ∧ p.cs' = []) := by
  rcases hp with ⟨hcore, hcs'⟩ | hend
  · by_cases hcs : p.cs = []
    · rw [hcs, List.nil_append] at hcs'
      cases hpost : p.cs' with
      | nil => exact Or.inr ⟨hcs, rfl⟩
      | cons c rest =>
        have hspace : Scan.isSpace c = true := h.space c (by rw [← hcs', hpost]; exact List.mem_cons_self ..)
        rw [hsettled.2.head c (by rw [hpost]; rfl)] at hspace
        exact absurd hspace Bool.false_ne_true
    · exact Or.inl ⟨hcore, hcs', hcs⟩
  · exact Or.inr hend

theorem advances_padded {s : Scan} (hcuts : s.Cuts) (hfirm : s.Firm ∨ s = Scan.atEnd)
    (hp : (padded h).Holds z p) (hsettled : p.IsSettled) : Advances (padded h) s.Bites z p s := by
  rcases holds_settled hp hsettled with ⟨hcore, hcs', hne⟩ | ⟨hcs, hcs'⟩
  · have hraised : s (raise p.cs') = ahead (raise post) (s (raise p.cs)) := by
      rw [hcs', raise_append]
      rcases hfirm with hfirm | rfl
      · exact hfirm _ _ h.raise.space
      · obtain ⟨c, cs, hcs⟩ := List.exists_cons_of_ne_nil hne
        rw [hcs]
        rfl
    cases hscan : s (raise p.cs) with
    | none => exact .fails hscan (by rw [hraised, hscan, ahead_none])
    | some cut =>
      obtain ⟨lexeme, rest⟩ := cut
      obtain ⟨w, v, hsplit, rfl, rfl⟩ := List.map_eq_append_iff.1 (hcuts _ _ _ hscan)
      have hsplit' : p.cs' = w ++ (v ++ post) := by rw [hcs', hsplit, List.append_assoc]
      refine .takes hsplit hsplit' hscan ?_ id (.inl ⟨?_, rfl⟩)
      · rw [hraised, hscan, ahead_some, raise_append]
        rfl
      · exact (List.suffix_append w v).trans (hsplit ▸ hcore)
  · have hhere : s (raise p.cs) = s [] := by rw [hcs, raise_nil]
    have hthere : s (raise p.cs') = s [] := by rw [hcs', raise_nil]
    cases hscan : s [] with
    | none => exact .fails (hhere.trans hscan) (hthere.trans hscan)
    | some cut =>
      obtain ⟨lexeme, rest⟩ := cut
      obtain ⟨rfl, rfl⟩ := List.append_eq_nil_iff.1 (hcuts _ _ _ hscan).symm
      have hsplit : p.cs = [] ++ [] := hcs
      have hsplit' : p.cs' = [] ++ [] := hcs'
      exact .takes hsplit hsplit' (hhere.trans hscan) (hthere.trans hscan) id (.inr ⟨rfl, rfl⟩)

/-- Such an expression is matched alike, whatever the zones. -/
theorem Firm.mirrored (he : e.Firm) (h : Pads core post) :
    Mirrored (padded h) False e.Bites (fun _ => True) (fun _ => True) e := by
  induction e with
  | start => exact he.elim
  | silent s =>
    exact fun _ _ hz hp hsettled =>
      .inl (Mirrored.alike_silent (advances_padded he.1 he.2 hp hsettled) hz)
  | token r s =>
    exact fun _ _ hz hp hsettled =>
      .inl (Mirrored.alike_token (advances_padded he.1 he.2 hp hsettled) hz)
  | phrase r e ih =>
    cases hr : r.isTold with
    | true => exact .phrase_single (he.1 hr) (ih he.2)
    | false => exact .phrase hr (ih he.2)
  | seq a b iha ihb => exact .seq (iha he.1) (ihb he.2)
  | alt a b iha ihb => exact .alt ((iha he.1).mono id And.left) ((ihb he.2).mono id And.right)
  | opt e ih => exact .opt (ih he)
  | many e ih => exact .many ((ih he.1).mono id fun _ => he.2) False.elim
  | never e ih => exact .never (ih he)

end Expr

namespace Ddl

open Grammar.Expr (found Alike)

/-! ## The grammar of table declarations -/

@[simp] theorem firm_kw (k : Keyword) : (kw k).Firm := by
  have hwords : ∀ u ∈ k.words, ∀ c ∈ u.toList, Scan.isSpace c = false := by cases k <;> decide
  rw [kw_eq]
  exact ⟨Scan.cuts_keyword k.words, .inl (Scan.firm_keyword hwords)⟩

@[simp] theorem bites_kw (k : Keyword) : (kw k).Bites := by
  rw [kw_eq]
  exact keyword_bites k

theorem firm_mark {c : Char} (hc : Scan.isSpace c = false) : (mark c).Firm :=
  ⟨Scan.cuts_word [c], .inl (Scan.firm_word (by simpa using hc))⟩

@[simp] theorem bites_mark (c : Char) : (mark c).Bites := mark_bites c

@[simp] theorem bites_bareIdent : bareIdent.Bites := bareIdent_bites

theorem firm_marks : (mark '(').Firm ∧ (mark ')').Firm ∧ (mark ',').Firm ∧ (mark '.').Firm
    ∧ (mark '=').Firm ∧ (mark ';').Firm :=
  ⟨firm_mark rfl, firm_mark rfl, firm_mark rfl, firm_mark rfl, firm_mark rfl, firm_mark rfl⟩

theorem firm_tokens :
    identifier.Firm ∧ bareIdent.Firm ∧ typeName.Firm ∧ stringLiteral.Firm ∧ bitLiteral.Firm
      ∧ number.Firm ∧ signedNumber.Firm ∧ parenExpr.Firm ∧ currentTimestamp.Firm ∧ endOfText.Firm :=
  ⟨⟨Scan.cuts_identifier, .inl Scan.firm_identifier⟩, ⟨Scan.cuts_run1 _, .inl Scan.firm_bareIdent⟩,
    ⟨Scan.cuts_typeName, .inl Scan.firm_typeName⟩,
    ⟨Scan.cuts_stringLiteral, .inl Scan.firm_stringLiteral⟩,
    ⟨Scan.cuts_bitLiteral, .inl Scan.firm_bitLiteral⟩, ⟨Scan.cuts_number, .inl Scan.firm_number⟩,
    ⟨Scan.cuts_signedNumber, .inl Scan.firm_signedNumber⟩,
    ⟨Scan.cuts_parenExpr, .inl Scan.firm_parenExpr⟩,
    ⟨Scan.cuts_currentTimestamp, .inl Scan.firm_currentTimestamp⟩, ⟨Scan.cuts_atEnd, .inr rfl⟩⟩

@[simp] theorem firm_list {e : Expr} : (list e).Firm ↔ e.Firm := by
  simp [list, firm_marks]

theorem firm_defaultValue : defaultValue.Firm :=
  ⟨fun _ => single_defaultValue, by simp [firm_tokens]⟩

theorem firm_columnDef : columnDef.Firm := by
  simp [firm_tokens, firm_marks, firm_defaultValue, Rule.isTold, columnDef,
    columnAttr, srid, storage, columnFormat, generatedClause, commentAttr, uniqueAttr, primaryAttr,
    onUpdate, autoIncrement, defaultClause, nullAttr, notNull, dataType, typeModifier, typeArgs, typeArg,
    references, refAction, keyParts, keyPart, visibility, checkDef, charsetClause, collateClause,
    tableName]

theorem firm_tableConstraint : tableConstraint.Firm := by
  simp [firm_tokens, firm_marks, Rule.isTold, tableConstraint, foreignKeyDef,
    indexDef, uniqueKeyDef, primaryKeyDef, constraintName, indexOption, indexType, indexName, references,
    refAction, keyParts, keyPart, visibility, checkDef, tableName]

theorem exists_firm_createTable :
    ∃ body : Expr, createTable = .phrase .createTable (.seq .start body) ∧ body.Firm := by
  refine ⟨_, rfl, ?_⟩
  simp [firm_tokens, firm_marks, firm_columnDef, firm_tableConstraint,
    Rule.isTold, createDefinition, ifNotExists, tableName, tableOption, genericOption, optionValue,
    optionName, tableComment]

/-- A declaration is matched alike with white space before it and after it. -/
theorem createTable_padded {front core post : List Char} (hfront : ∀ c ∈ front, Scan.isSpace c = true)
    (h : Pads core post) (hne : core ≠ []) (hcore : Settled core) :
    Alike (padded h) False (fun _ => True) ⟨[], [], core, front ++ (core ++ post)⟩
      (found createTable (.place [] core)) (found createTable (.place [] (front ++ (core ++ post)))) := by
  obtain ⟨body, hbody, hfirm⟩ := exists_firm_createTable
  have hpads : Pads ([] ++ core) post := h
  have hpadded : Settled (core ++ post) := hpads.spacing hcore hne
  -- After the white space before the declaration both texts go on alike.
  let p : Spot := ⟨[], [], core, front ++ (core ++ post)⟩
  let q : Spot := ⟨[], front, core, core ++ post⟩
  have hleaves : p.Leaves [] front q := ⟨rfl, rfl, rfl, rfl⟩
  have hhere : p.here.skip = q.here := Cursor.skip_place_of_settled hcore
  have hthere : p.there.skip = q.there := Cursor.skip_place hfront hpadded
  rw [hbody]
  refine Expr.Mirrored.alike_phrase (p := p) rfl ?_
  rw [Expr.found_seq_start rfl hhere, Expr.found_seq_start rfl hthere]
  have hmirrored : Expr.Mirrored (padded h) False False (fun _ => True) (fun _ => True) body :=
    (hfirm.mirrored h).mono id False.elim
  rcases hmirrored (z := .head) (p := q) trivial (.inl ⟨List.suffix_refl _, rfl⟩) ⟨hcore, hpadded⟩ with
    halike | ⟨hs, -⟩
  · have htold : Tree.toldAll p.text [] = Tree.toldAll p.text' [] := rfl
    have hafter := Expr.Mirrored.alike_after hleaves (False.elim : False → _) htold halike
    simpa using hafter
  · exact hs.elim

end Ddl

end GoScaffold.Grammar
