import GoScaffold.Grammar.Ddl
import GoScaffold.Proofs.Grammar.Respaced

set_option autoImplicit false

/-! # Scanners cut texts

A scanner hands back a lexeme and the rest. Nothing in its type says that the two make up the text it
was given, so that the place after a lexeme is a place of the same text (`Scan.Cuts`). Each way of
building scanners keeps this, and so every scanner of the grammar has it (`Ddl.cuts_createTable`). -/

namespace GoScaffold.Grammar

/-- Where there is a cut, the lexeme and the rest make up the text. -/
def IsCut (cs : List Char) (cut : Option (List Char × List Char)) : Prop :=
  ∀ lexeme rest, cut = some (lexeme, rest) → cs = lexeme ++ rest

theorem isCut_none (cs : List Char) : IsCut cs none := fun _ _ h => nomatch h

theorem isCut_some (lexeme rest : List Char) : IsCut (lexeme ++ rest) (some (lexeme, rest)) := by
  intro w r h
  obtain ⟨rfl, rfl⟩ := Prod.mk.inj (Option.some.inj h)
  rfl

theorem IsCut.behind {cs : List Char} {cut : Option (List Char × List Char)} (c : Char)
    (h : IsCut cs cut) : IsCut (c :: cs) (behind c cut) := by
  intro lexeme rest hcut
  obtain ⟨⟨w, r⟩, hsome, hparts⟩ := Option.map_eq_some_iff.1 hcut
  obtain ⟨rfl, rfl⟩ := Prod.mk.inj hparts
  rw [h w r hsome, List.cons_append]

namespace Scan

/-- Whatever the scanner takes off a text, it leaves the rest of that text. -/
def Cuts (s : Scan) : Prop := ∀ cs, IsCut cs (s cs)

variable {a b s : Scan}

/-! ## Ways of building scanners -/

theorem cuts_word (w : List Char) : (word w).Cuts := by
  intro cs lexeme rest h
  obtain ⟨rfl, hcs⟩ := word_eq_some.1 h
  exact hcs

theorem cuts_one (p : Char → Bool) : (one p).Cuts := by
  intro cs
  cases cs with
  | nil => exact isCut_none []
  | cons c cs =>
    rw [one]
    split
    · exact isCut_some [c] cs
    · exact isCut_none _

theorem cuts_run (p : Char → Bool) : (run p).Cuts := by
  intro cs lexeme rest h
  obtain ⟨rfl, rfl⟩ := Prod.mk.inj (Option.some.inj h)
  exact List.takeWhile_append_dropWhile.symm

theorem cuts_notBefore (p : Char → Bool) : (notBefore p).Cuts := by
  intro cs
  cases cs with
  | nil => exact isCut_some [] []
  | cons c cs =>
    rw [notBefore]
    split
    · exact isCut_none _
    · exact isCut_some [] (c :: cs)

theorem cuts_atEnd : atEnd.Cuts := by
  intro cs
  cases cs with
  | nil => exact isCut_some [] []
  | cons c cs => exact isCut_none _

theorem Cuts.chain (ha : a.Cuts) (hb : b.Cuts) : (chain a b).Cuts := by
  intro cs lexeme rest h
  obtain ⟨u, m, v, hu, hv, rfl⟩ := chain_eq_some.1 h
  rw [ha cs u m hu, hb m v rest hv, List.append_assoc]

theorem Cuts.either (ha : a.Cuts) (hb : b.Cuts) : (either a b).Cuts := by
  intro cs lexeme rest h
  rw [Scan.either, Option.or_eq_some_iff] at h
  rcases h with h | ⟨-, h⟩
  · exact ha cs lexeme rest h
  · exact hb cs lexeme rest h

theorem Cuts.maybe (ha : a.Cuts) : (maybe a).Cuts := by
  intro cs
  rw [Scan.maybe]
  cases hfound : a cs with
  | none => exact isCut_some [] cs
  | some found =>
    rw [ha cs found.1 found.2 hfound]
    exact isCut_some found.1 found.2

theorem Cuts.all {scans : List Scan} (h : ∀ s ∈ scans, s.Cuts) : (all scans).Cuts := by
  induction scans with
  | nil => exact isCut_some []
  | cons s scans ih =>
    exact (h s (List.mem_cons_self ..)).chain (ih fun t ht => h t (List.mem_cons_of_mem _ ht))

theorem Cuts.first {scans : List Scan} (h : ∀ s ∈ scans, s.Cuts) : (first scans).Cuts := by
  induction scans with
  | nil => exact isCut_none
  | cons s scans ih =>
    exact (h s (List.mem_cons_self ..)).either (ih fun t ht => h t (List.mem_cons_of_mem _ ht))

theorem cuts_run1 (p : Char → Bool) : (run1 p).Cuts := (cuts_one p).chain (cuts_run p)

/-! ## The scanners of the grammar -/

theorem cuts_keyword (words : List String) : (keyword words).Cuts := by
  refine Cuts.chain (Cuts.first ?_) (cuts_notBefore _)
  intro s hs
  obtain ⟨w, -, rfl⟩ := List.mem_map.1 hs
  exact cuts_word w.toList

theorem cuts_backtickEnd : backtickEnd.Cuts := by
  intro cs
  fun_induction backtickEnd cs with
  | case1 => exact isCut_none []
  | case2 => exact isCut_some ['`'] []
  | case3 => exact isCut_none _
  | case4 cs ih => exact (ih.behind '`').behind '`'
  | case5 d cs => exact isCut_some ['`'] (d :: cs)
  | case6 c d cs _ ih => exact ih.behind c

theorem cuts_identifier : identifier.Cuts :=
  ((cuts_word _).chain cuts_backtickEnd).either (cuts_run1 _)

theorem cuts_typeName : typeName.Cuts := (cuts_one _).chain (cuts_run _)

theorem cuts_stringEnd (q : Char) : (stringEnd q).Cuts := by
  intro cs
  fun_induction stringEnd q cs with
  | case1 => exact isCut_none []
  | case2 => exact isCut_some [q] []
  | case3 => exact isCut_none _
  | case4 d cs ih => exact (ih.behind d).behind '\\'
  | case5 cs _ ih => exact (ih.behind q).behind q
  | case6 d cs => exact isCut_some [q] (d :: cs)
  | case7 c d cs _ _ ih => exact ih.behind c

theorem cuts_stringLiteral : stringLiteral.Cuts :=
  ((cuts_word _).chain (cuts_stringEnd _)).either ((cuts_word _).chain (cuts_stringEnd _))

theorem cuts_bitLiteral : bitLiteral.Cuts := by
  refine Cuts.all ?_
  simp only [List.forall_mem_cons]
  exact ⟨cuts_one _, cuts_word _, cuts_run _, cuts_word _, List.forall_mem_nil _⟩

theorem cuts_number : number.Cuts := by
  have hdecimal : (either (chain (run1 Char.isDigit) (maybe (chain (word ['.']) (run Char.isDigit))))
      (chain (word ['.']) (run1 Char.isDigit))).Cuts :=
    ((cuts_run1 _).chain ((cuts_word _).chain (cuts_run _)).maybe).either
      ((cuts_word _).chain (cuts_run1 _))
  have hexponent : (all [word ['E'], maybe sign, run1 Char.isDigit]).Cuts := by
    refine Cuts.all ?_
    simp only [List.forall_mem_cons]
    exact ⟨cuts_word _, (cuts_one _).maybe, cuts_run1 _, List.forall_mem_nil _⟩
  exact ((cuts_word _).chain (cuts_run1 _)).either (hdecimal.chain hexponent.maybe)

theorem cuts_signedNumber : signedNumber.Cuts := (cuts_one _).maybe.chain cuts_number

theorem cuts_parenEnd (pending depth : Nat) : (parenEnd pending depth).Cuts := by
  intro cs
  fun_induction parenEnd pending depth cs with
  | case1 => exact isCut_none []
  | case2 _ _ c _ ih => exact ih.behind c
  | case3 _ _ ih => exact ih.behind '('
  | case4 cs => exact isCut_some [')'] cs
  | case5 _ _ _ ih => exact ih.behind ')'
  | case6 _ c _ _ _ _ _ _ ih => exact ih.behind c
  | case7 _ c _ _ _ _ ih => exact ih.behind c

theorem cuts_parenExpr : parenExpr.Cuts := (cuts_word _).chain (cuts_parenEnd 0 0)

theorem cuts_currentTimestamp : currentTimestamp.Cuts := by
  have hprecision : (all [run isSpace, word ['('], run isSpace, run Char.isDigit, run isSpace,
      word [')']]).Cuts := by
    refine Cuts.all ?_
    simp only [List.forall_mem_cons]
    exact ⟨cuts_run _, cuts_word _, cuts_run _, cuts_run _, cuts_run _, cuts_word _,
      List.forall_mem_nil _⟩
  exact (cuts_keyword _).chain hprecision.maybe

end Scan

end GoScaffold.Grammar
