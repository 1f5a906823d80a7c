import GoScaffold.Proofs.Grammar.MirroredRules
import GoScaffold.Proofs.Grammar.Shapes

set_option autoImplicit false

/-! # What trees span

A token takes what its scanner takes, and so does a choice of tokens: the expression is scanned as a
whole (`Expr.Scans`). Where a tree of such an expression is found in a text, its span is a lexeme of the
scanner (`Expr.IsMatch.isLexeme`). No scanner of a name, a type or a literal takes an empty lexeme. -/

namespace GoScaffold.Grammar

open Text

/-! ## Scanners that take something -/

namespace Scan

variable {a b : Scan}

theorem Bites.chain_left (ha : a.Bites) : (chain a b).Bites := by
  intro cs rest h
  obtain ⟨u, m, v, hu, -, huv⟩ := chain_eq_some.1 h
  obtain ⟨rfl, rfl⟩ := List.append_eq_nil_iff.1 huv.symm
  exact ha cs m hu

theorem Bites.chain_right (hb : b.Bites) : (chain a b).Bites := by
  intro cs rest h
  obtain ⟨u, m, v, -, hv, huv⟩ := chain_eq_some.1 h
  obtain ⟨rfl, rfl⟩ := List.append_eq_nil_iff.1 huv.symm
  exact hb m rest hv

theorem Bites.either (ha : a.Bites) (hb : b.Bites) : (either a b).Bites := by
  intro cs rest h
  rw [Scan.either, Option.or_eq_some_iff] at h
  rcases h with h | ⟨-, h⟩
  · exact ha cs rest h
  · exact hb cs rest h

theorem Bites.first {scans : List Scan} (h : ∀ s ∈ scans, s.Bites) : (first scans).Bites := by
  induction scans with
  | nil =>
    intro cs rest h
    cases h
  | cons s scans ih =>
    exact (h s List.mem_cons_self).either (ih fun t ht => h t (List.mem_cons_of_mem _ ht))

theorem bites_word {w : List Char} (hw : w ≠ []) : (word w).Bites :=
  fun _ _ h => hw (word_eq_some.1 h).1.symm

theorem bites_one (p : Char → Bool) : (one p).Bites := by
  intro cs rest h
  cases cs with
  | nil => cases h
  | cons c cs =>
    rw [one] at h
    split at h <;> cases h

theorem bites_run1 (p : Char → Bool) : (run1 p).Bites := (bites_one p).chain_left

theorem bites_keyword {words : List String} (h : ∀ w ∈ words, w.toList ≠ []) :
    (keyword words).Bites := by
  refine (Bites.first fun s hs => ?_).chain_left
  obtain ⟨w, hw, rfl⟩ := List.mem_map.1 hs
  exact bites_word (h w hw)

theorem bites_identifier : identifier.Bites :=
  (bites_word (List.cons_ne_nil _ _)).chain_left.either (bites_run1 _)

theorem bites_typeName : typeName.Bites := (bites_one _).chain_left

theorem bites_stringLiteral : stringLiteral.Bites :=
  (bites_word (List.cons_ne_nil _ _)).chain_left.either (bites_word (List.cons_ne_nil _ _)).chain_left

theorem bites_bitLiteral : bitLiteral.Bites := (bites_one _).chain_left

theorem bites_number : number.Bites :=
  (bites_word (List.cons_ne_nil _ _)).chain_left.either
    ((bites_run1 _).chain_left.either (bites_word (List.cons_ne_nil _ _)).chain_left).chain_left

theorem bites_parenExpr : parenExpr.Bites := (bites_word (List.cons_ne_nil _ _)).chain_left

theorem bites_currentTimestamp : currentTimestamp.Bites :=
  (bites_keyword (by decide)).chain_left

/-- The value of a default. -/
def defaultValue : Scan :=
  either currentTimestamp <| either parenExpr <| either signedNumber <| either stringLiteral
    <| either bitLiteral <| either (keyword Keyword.null.words) <| either (keyword Keyword.true_.words)
    <| either (keyword Keyword.false_.words) bareIdent

theorem cuts_defaultValue : defaultValue.Cuts :=
  cuts_currentTimestamp.either <| cuts_parenExpr.either <| cuts_signedNumber.either
    <| cuts_stringLiteral.either <| cuts_bitLiteral.either <| (cuts_keyword _).either
    <| (cuts_keyword _).either <| (cuts_keyword _).either (cuts_run1 _)

theorem bites_defaultValue : defaultValue.Bites :=
  bites_currentTimestamp.either <| bites_parenExpr.either <| bites_number.chain_right.either
    <| bites_stringLiteral.either <| bites_bitLiteral.either <| (Ddl.keyword_bites _).either
    <| (Ddl.keyword_bites _).either <| (Ddl.keyword_bites _).either Ddl.bareIdent_bites

end Scan

/-! ## Expressions that are scanned as a whole -/

namespace Expr

variable {text : List Char} {a b e : Expr} {s s' : Scan} {r : Rule} {t : Tree}

/-- What the expression takes is what the scanner takes. -/
def Scans (e : Expr) (s : Scan) : Prop := ∀ c, (found e c).map (·.2) = c.advance? s

theorem Scans.token (r : Rule) (s : Scan) : (Expr.token r s).Scans s := by
  intro c
  rw [found, Option.map_map]
  exact Option.map_id'

theorem Scans.phrase (r : Rule) (h : e.Scans s) : (Expr.phrase r e).Scans s := by
  intro c
  rw [found, Option.map_map, ← h c]
  rfl

theorem Scans.alt (ha : a.Scans s) (hb : b.Scans s') : (Expr.alt a b).Scans (.either s s') := by
  intro c
  rw [found, Option.map_or, ha c, hb c, Cursor.advance?, Cursor.advance?, ← Option.map_or]
  rfl

/-- A match that is scanned as a whole spans a lexeme. -/
theorem IsMatch.isLexeme (h : IsMatch text e t) (hrule : e.rule? = some r) (hscans : e.Scans s)
    (hs : s.Cuts) : IsLexeme text s t.span := by
  obtain ⟨-, start, stop, hstart, hfound⟩ := h
  have hstop : start.advance? s = some stop := by
    rw [← hscans start, hfound]
    rfl
  have hspan : t.span = ⟨start.offset, stop.offset⟩ := by
    cases e with
    | token q s =>
      obtain ⟨-, hts⟩ := found_token_iff.1 hfound
      rw [(List.cons.inj hts).1, Tree.span]
    | phrase q e =>
      obtain ⟨us, -, hts⟩ := found_phrase_iff.1 hfound
      rw [(List.cons.inj hts).1, Tree.span]
    | _ => cases hrule
  rw [hspan]
  exact (hstart.advance hs hstop).2

theorem IsMatch.isLexeme_token (h : IsMatch text (.token r s) t) : IsLexeme text s t.span :=
  h.isLexeme rfl (.token r s) h.cuts

end Expr

namespace Ddl

theorem scans_kw (k : Keyword) : (kw k).Scans (Scan.keyword k.words) := by
  rw [kw_eq]
  exact .token _ _

theorem scans_defaultValue : defaultValue.Scans Scan.defaultValue :=
  .phrase _ <| .alt (.token _ _) <| .alt (.token _ _) <| .alt (.token _ _) <| .alt (.token _ _)
    <| .alt (.token _ _) <| .alt (scans_kw _) <| .alt (scans_kw _) <| .alt (scans_kw _) (.token _ _)

end Ddl

end GoScaffold.Grammar
