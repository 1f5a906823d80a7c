import GoScaffold.Proofs.Grammar.Found
import GoScaffold.Proofs.Text.Capitals
import GoScaffold.Proofs.Sql.Quoting
import Mathlib.Data.List.Basic

set_option autoImplicit false

/-! # Tokens at a place of a text

A place in a text is given by what stands before it and what follows (`Cursor.place`); matching
there goes over the capitals of what follows. For each kind of token a lemma says what it takes off
a text that begins with its written form (`keyword_append`, `identifier_backticked`,
`stringLiteral_literal`, `signedNumber_digits`), and `Expr.Leads.token` turns each of them into a
step from one place to the next. -/

namespace GoScaffold.Grammar

open Text

/-! ## Places -/

/-- The place after `before`, where `rest` follows. -/
def Cursor.place (before rest : List Char) : Cursor := ⟨width before, raise rest⟩

/-- Neither white space nor a comment begins the text. -/
def Settled (rest : List Char) : Prop := Scan.blanks (raise rest) = ([], raise rest)

instance (rest : List Char) : Decidable (Settled rest) := inferInstanceAs (Decidable (_ = _))

theorem settled_nil : Settled [] := rfl

theorem Scan.isIdentChar_of_isDigit {c : Char} (h : c.isDigit = true) : isIdentChar c = true := by
  simp [isIdentChar, Char.isAlphanum, h]

/-- A comment begins with `#`, `-` or `/`. -/
theorem Scan.comment_eq_none {c : Char} (cs : List Char) (h : c ≠ '#' ∧ c ≠ '-' ∧ c ≠ '/') :
    comment (c :: cs) = none := by
  have hsharp : ('#' == c) = false := by simpa using h.1.symm
  have hdash : ('-' == c) = false := by simpa using h.2.1.symm
  have hslash : ('/' == c) = false := by simpa using h.2.2.symm
  simp [comment, first, either, chain, word, List.isPrefixOf?, hsharp, hdash, hslash]

theorem settled_cons {c : Char} (cs : List Char) (hspace : Scan.isSpace c = false)
    (hmark : c ≠ '#' ∧ c ≠ '-' ∧ c ≠ '/') : Settled (c :: cs) := by
  have hcomment : Scan.comment (c.toUpper :: raise cs) = none := by
    apply Scan.comment_eq_none
    simpa only [ne_eq, toUpper_eq_iff (d := '#') rfl, toUpper_eq_iff (d := '-') rfl,
      toUpper_eq_iff (d := '/') rfl] using hmark
  simp [Settled, Scan.blanks, Scan.blanksFrom, hspace, hcomment]

theorem settled_of_isIdentChar {c : Char} (cs : List Char) (hc : Scan.isIdentChar c = true) :
    Settled (c :: cs) := by
  have hnot {d : Char} (hd : Scan.isIdentChar d = false) : c ≠ d := by
    rintro rfl
    simp [hc] at hd
  have hspace : Scan.isSpace c = false := by
    simp [Scan.isSpace, hnot (d := ' ') rfl, hnot (d := '\t') rfl, hnot (d := '\n') rfl,
      hnot (d := '\r') rfl]
  exact settled_cons _ hspace ⟨hnot rfl, hnot rfl, hnot rfl⟩

theorem settled_of_isDigit {c : Char} (cs : List Char) (hc : c.isDigit = true) :
    Settled (c :: cs) :=
  settled_of_isIdentChar cs (Scan.isIdentChar_of_isDigit hc)

/-- One minus sign begins no comment. -/
theorem settled_minus {c : Char} (cs : List Char) (hc : c.isDigit = true) :
    Settled ('-' :: c :: cs) := by
  have hne : '-' ≠ c := by
    rintro rfl
    exact absurd hc (by decide)
  have hcomment : Scan.comment ('-' :: c :: raise cs) = none := by
    simp [Scan.comment, Scan.first, Scan.either, Scan.chain, Scan.word, List.isPrefixOf?, hne]
  have hminus : Char.toUpper '-' = '-' := rfl
  have hspace : Scan.isSpace '-' = false := by decide
  simp [Settled, Scan.blanks, Scan.blanksFrom, hminus, hspace, toUpper_of_isDigit hc, hcomment]

theorem Settled.head {rest : List Char} (h : Settled rest) :
    ∀ c ∈ rest.head?, Scan.isSpace c = false := by
  cases rest with
  | nil => simp
  | cons c cs =>
    simp only [List.head?_cons, Option.mem_some_iff, forall_eq']
    refine Bool.eq_false_iff.2 fun hc => ?_
    rw [Settled, raise_cons, Scan.blanks_of_isSpace _ (by simpa using hc)] at h
    simp at h

theorem Cursor.skip_place {before gap rest : List Char} (hgap : ∀ c ∈ gap, Scan.isSpace c = true)
    (hrest : Settled rest) :
    (Cursor.place before (gap ++ rest)).skip = Cursor.place (before ++ gap) rest := by
  have hblanks : Scan.blanks (raise (gap ++ rest)) = (raise gap, raise rest) := by
    induction gap with
    | nil => exact hrest
    | cons c gap ih =>
      have hc : Scan.isSpace c.toUpper = true := by simpa using hgap c (List.mem_cons_self ..)
      rw [List.cons_append, raise_cons, Scan.blanks_of_isSpace _ hc,
        ih fun d hd => hgap d (List.mem_cons_of_mem _ hd)]
      rfl
  simp only [Cursor.skip, Cursor.place, hblanks, width_raise, width_append]

theorem Cursor.skip_place_of_settled {before rest : List Char} (h : Settled rest) :
    (Cursor.place before rest).skip = Cursor.place before rest := by
  have hskip : (Cursor.place before ([] ++ rest)).skip = Cursor.place (before ++ []) rest :=
    Cursor.skip_place (by simp) h
  simpa using hskip

/-- What may follow a token: white space and then a settled place, and nothing at once that would
carry a word, a number or a quoted text on. -/
structure Parted (gap rest : List Char) : Prop where
  space : ∀ c ∈ gap, Scan.isSpace c = true
  settled : Settled rest
  ends : ∀ c ∈ (gap ++ rest).head?, Scan.isIdentChar c = false ∧ c ∉ ['.', '\'', '"', '`']

namespace Parted

theorem of_space {c : Char} {gap rest : List Char} (hgap : ∀ d ∈ c :: gap, Scan.isSpace d = true)
    (hrest : Settled rest) : Parted (c :: gap) rest := by
  refine ⟨hgap, hrest, ?_⟩
  have hc : c = ' ' ∨ c = '\t' ∨ c = '\n' ∨ c = '\r' := by
    simpa [Scan.isSpace, or_assoc] using hgap c (List.mem_cons_self ..)
  rcases hc with rfl | rfl | rfl | rfl <;> simp <;> decide

theorem blank {rest : List Char} (h : Settled rest) : Parted [' '] rest :=
  of_space (by decide) h

theorem mark {c : Char} (cs : List Char) (hc : c ∈ ['(', ')', ',', ';', '=']) :
    Parted [] (c :: cs) := by
  simp only [List.mem_cons, List.not_mem_nil, or_false] at hc
  rcases hc with rfl | rfl | rfl | rfl | rfl <;>
    exact ⟨by simp, settled_cons cs (by decide) (by decide), by simp; decide⟩

end Parted

namespace Expr

/-- The expression matches at a place where `piece` and then `rest` follow; `piece` is the match
and the white space after it. -/
def Takes (e : Expr) (before piece rest : List Char) (ts : List Tree) : Prop :=
  Leads e (.place before (piece ++ rest)) (.place (before ++ piece) rest) ts

namespace Takes

variable {a b e : Expr} {before piece next gap rest : List Char} {ts us : List Tree}

theorem of_eq {piece' : List Char} (h : Takes e before piece rest ts) (hpiece : piece' = piece) :
    Takes e before piece' rest ts :=
  hpiece ▸ h

theorem phrase (r : Rule) (h : Takes e before piece rest ts) :
    ∃ stop, Takes (.phrase r e) before piece rest [.node r (width before) stop ts] :=
  Leads.phrase r h

theorem seq_of_eq {mid after : List Char} (ha : Takes a before piece mid ts)
    (hb : Takes b after next rest us) (hmid : mid = next ++ rest)
    (hafter : after = before ++ piece) :
    Takes (.seq a b) before (piece ++ next) rest (ts ++ us) := by
  subst hmid hafter
  unfold Takes at *
  rw [List.append_assoc, ← List.append_assoc before]
  exact Leads.seq ha hb

theorem seq (ha : Takes a before piece (next ++ rest) ts)
    (hb : Takes b (before ++ piece) next rest us) :
    Takes (.seq a b) before (piece ++ next) rest (ts ++ us) :=
  ha.seq_of_eq hb rfl rfl

theorem alt_left (h : Takes a before piece rest ts) : Takes (.alt a b) before piece rest ts :=
  Leads.alt_left h

theorem alt_right (ha : found a (.place before (piece ++ rest)) = none)
    (h : Takes b before piece rest ts) : Takes (.alt a b) before piece rest ts :=
  Leads.alt_right ha h

theorem opt (h : Takes e before piece rest ts) : Takes (.opt e) before piece rest ts :=
  Leads.opt h

theorem opt_none (before : List Char) (h : found e (.place before rest) = none)
    (hrest : Settled rest) :
    Takes (.opt e) before [] rest [] := by
  unfold Takes
  rw [List.append_nil]
  exact Leads.opt_none h (Cursor.skip_place_of_settled hrest)

theorem many_none (before : List Char) (h : found e (.place before rest) = none)
    (hrest : Settled rest) :
    Takes (.many e) before [] rest [] := by
  unfold Takes
  rw [List.append_nil]
  exact Leads.many_none h (Cursor.skip_place_of_settled hrest)

theorem never (before : List Char) (h : found e (.place before rest) = none)
    (hrest : Settled rest) :
    Takes (.never e) before [] rest [] := by
  unfold Takes
  rw [List.append_nil]
  exact Leads.never h (Cursor.skip_place_of_settled hrest)

/-- A match up to white space takes the white space along. -/
theorem of_found (h : found e (.place before (piece ++ (gap ++ rest)))
      = some (ts, .place (before ++ piece) (gap ++ rest)))
    (hgap : Parted gap rest) : Takes e before (piece ++ gap) rest ts := by
  unfold Takes
  rw [List.append_assoc, ← List.append_assoc before]
  exact ⟨_, h, Cursor.skip_place hgap.space hgap.settled⟩

end Takes

theorem found_token (r : Rule) {s : Scan} (before : List Char) {piece rest : List Char}
    (hs : s (raise (piece ++ rest)) = some (raise piece, raise rest)) :
    found (.token r s) (.place before (piece ++ rest))
      = some ([.node r (width before) (width before + width piece) []],
          .place (before ++ piece) rest) := by
  simp [found, Cursor.advance?, Cursor.place, -raise_append, hs]

theorem found_token_eq_none (r : Rule) {s : Scan} (before : List Char) {rest : List Char}
    (hs : s (raise rest) = none) : found (.token r s) (.place before rest) = none :=
  Option.map_eq_none_iff.2 (Option.map_eq_none_iff.2 hs)

theorem found_silent {s : Scan} (before : List Char) {piece rest : List Char}
    (hs : s (raise (piece ++ rest)) = some (raise piece, raise rest)) :
    found (.silent s) (.place before (piece ++ rest))
      = some ([], .place (before ++ piece) rest) := by
  simp [found, Cursor.advance?, Cursor.place, -raise_append, hs]

theorem found_silent_eq_none {s : Scan} (before : List Char) {rest : List Char}
    (hs : s (raise rest) = none) : found (.silent s) (.place before rest) = none :=
  Option.map_eq_none_iff.2 (Option.map_eq_none_iff.2 hs)

end Expr

/-! ## Words -/

/-- No character of identifiers begins the text. -/
def EndsWord (rest : List Char) : Prop := ∀ c ∈ rest.head?, Scan.isIdentChar c = false

namespace Scan

theorem notBefore_of_endsWord {rest : List Char} (h : EndsWord rest) :
    notBefore isIdentChar rest = some ([], rest) := by
  cases rest with
  | nil => rfl
  | cons c cs => simp [notBefore, h c (by simp)]

theorem word_eq_some {w cs lexeme rest : List Char} :
    word w cs = some (lexeme, rest) ↔ lexeme = w ∧ cs = w ++ rest := by
  have h : w.isPrefixOf? cs = some rest ↔ cs = w ++ rest := by
    induction w generalizing cs with
    | nil => simp [List.isPrefixOf?]
    | cons d w ih =>
      cases cs with
      | nil => simp [List.isPrefixOf?]
      | cons c cs =>
        by_cases hd : d = c
        · simp [List.isPrefixOf?, hd, ih]
        · simp [List.isPrefixOf?, hd, Ne.symm hd]
  simp only [word, Option.map_eq_some_iff, Prod.mk.injEq]
  constructor
  · rintro ⟨more, hmore, rfl, rfl⟩
    exact ⟨rfl, h.1 hmore⟩
  · rintro ⟨rfl, hcs⟩
    exact ⟨rest, h.2 hcs, rfl, rfl⟩

theorem word_append (w rest : List Char) : word w (w ++ rest) = some (w, rest) :=
  word_eq_some.2 ⟨rfl, rfl⟩

theorem keyword_append (w : String) (words : List String) {rest : List Char} (h : EndsWord rest) :
    keyword (w :: words) (w.toList ++ rest) = some (w.toList, rest) := by
  simp [keyword, chain, first, either, word_append, notBefore_of_endsWord h]

/-- Where a word ends, only a keyword that is spelled so takes it. -/
theorem keyword_eq_none {words : List String} {w rest : List Char}
    (hw : ∀ c ∈ w, isIdentChar c = true) (hrest : EndsWord rest)
    (hwords : ∀ u ∈ words, (∀ c ∈ u.toList, isIdentChar c = true) ∧ u.toList ≠ w) :
    keyword words (w ++ rest) = none := by
  have hword {u more : List Char} (hu : ∀ c ∈ u, isIdentChar c = true) (hne : u ≠ w)
      (h : w ++ rest = u ++ more) : notBefore isIdentChar more = none := by
    rw [List.append_eq_append_iff] at h
    rcases h with ⟨x, rfl, hx⟩ | ⟨x, rfl, rfl⟩
    · -- the spelling is longer than the word, though the word has ended
      cases x with
      | nil => simp at hne
      | cons c x =>
        have hc : isIdentChar c = true := hu c (by simp)
        exact absurd (hrest c (by simp [hx])) (by simp [hc])
    · cases x with
      | nil => simp at hne
      | cons c x => simp [notBefore, hw c (by simp)]
  have hfirst : ∀ lexeme more, first (words.map fun u => word u.toList) (w ++ rest)
      = some (lexeme, more) → notBefore isIdentChar more = none := by
    intro lexeme more h
    induction words with
    | nil => simp [first] at h
    | cons u words ih =>
      simp only [List.map_cons, first, either, Option.or_eq_some_iff] at h
      rcases h with h | ⟨-, h⟩
      · obtain ⟨hu, hne⟩ := hwords u (List.mem_cons_self ..)
        exact hword hu hne (word_eq_some.1 h).2
      · exact ih (fun v hv => hwords v (List.mem_cons_of_mem _ hv)) h
  unfold keyword chain
  split
  · rfl
  · next lexeme more h => simp [hfirst lexeme more h]

end Scan

namespace Keyword

/-- The spellings of a keyword; one of them has two. -/
def words : Keyword → List String
  | .autoIncrement => [Keyword.autoIncrement.spelling, "AUTOINCREMENT"]
  | k => [k.spelling]

theorem words_eq (k : Keyword) : ∃ more, k.words = k.spelling :: more := by
  cases k <;> exact ⟨_, rfl⟩

theorem spelling_capital (k : Keyword) :
    ∀ c ∈ k.spelling.toList, c.toUpper = c ∧ Scan.isIdentChar c = true := by
  cases k <;> decide

theorem isIdentChar_of_mem_words (k : Keyword) :
    ∀ u ∈ k.words, ∀ c ∈ u.toList, Scan.isIdentChar c = true := by
  cases k <;> decide

end Keyword

theorem Ddl.kw_eq (k : Keyword) : Ddl.kw k = .token (.keyword k) (Scan.keyword k.words) := by
  cases k <;> rfl

theorem endsWord_raise {cs : List Char} (h : EndsWord cs) : EndsWord (raise cs) := by
  cases cs with
  | nil => exact h
  | cons c cs => simpa [EndsWord] using h

theorem Parted.endsWord {gap rest : List Char} (h : Parted gap rest) : EndsWord (gap ++ rest) :=
  fun c hc => (h.ends c hc).1

/-- One of the words begins the text and ends there; the empty word stands for no word at all. -/
def Heads (words : List String) (rest : List Char) : Prop :=
  ∃ w ∈ words, ∃ more, rest = w.toList ++ more ∧ EndsWord more

theorem Heads.mono {words others : List String} {rest : List Char} (h : Heads words rest)
    (hsub : ∀ w ∈ words, w ∈ others) : Heads others rest := by
  obtain ⟨w, hw, more, hmore⟩ := h
  exact ⟨w, hsub w hw, more, hmore⟩

theorem Heads.exists_cons {words : List String} {rest : List Char} (h : Heads words rest)
    (hwords : ∀ w ∈ words, w ≠ "" ∧ ∀ c ∈ w.toList, Scan.isIdentChar c = true) :
    ∃ c cs, rest = c :: cs ∧ Scan.isIdentChar c = true := by
  obtain ⟨w, hw, more, rfl, -⟩ := h
  obtain ⟨hne, hident⟩ := hwords w hw
  cases hcs : w.toList with
  | nil => exact absurd (String.toList_eq_nil_iff.1 hcs) hne
  | cons c cs => exact ⟨c, cs ++ more, rfl, hident c (by simp [hcs])⟩

/-- A place where a word begins is settled. -/
theorem Heads.settled {words : List String} {rest : List Char} (h : Heads words rest)
    (hwords : ∀ w ∈ words, w ≠ "" ∧ ∀ c ∈ w.toList, Scan.isIdentChar c = true) : Settled rest := by
  obtain ⟨c, cs, rfl, hc⟩ := h.exists_cons hwords
  exact settled_of_isIdentChar cs hc

theorem Heads.of_mark {c : Char} (cs : List Char) (hc : Scan.isIdentChar c = false) :
    Heads [""] (c :: cs) :=
  ⟨"", by simp, c :: cs, by simp, by simpa [EndsWord] using hc⟩

namespace Expr

open Ddl

variable {gap rest : List Char}

theorem Takes.kw (before : List Char) (k : Keyword) (hgap : Parted gap rest) :
    Takes (kw k) before (k.spelling.toList ++ gap) rest
      [.node (.keyword k) (width before) (width before + width k.spelling.toList) []] := by
  rw [kw_eq]
  refine Takes.of_found (found_token _ _ ?_) hgap
  obtain ⟨more, hwords⟩ := k.words_eq
  rw [raise_append, raise_eq_self fun c hc => (k.spelling_capital c hc).1, hwords]
  exact Scan.keyword_append _ _ (endsWord_raise hgap.endsWord)

/-- A keyword fails where other words, or none, begin the text. -/
theorem found_kw_eq_none {words : List String} (before : List Char) (h : Heads words rest)
    (hwords : ∀ w ∈ words, ∀ c ∈ w.toList, c.toUpper = c ∧ Scan.isIdentChar c = true)
    {k : Keyword} (hne : ∀ u ∈ k.words, u ∉ words) : found (Ddl.kw k) (.place before rest) = none := by
  obtain ⟨w, hw, more, rfl, hmore⟩ := h
  have h : Scan.keyword k.words (w.toList ++ raise more) = none := by
    refine Scan.keyword_eq_none (fun c hc => (hwords w hw c hc).2) (endsWord_raise hmore) ?_
    intro u hu
    refine ⟨k.isIdentChar_of_mem_words u hu, fun huw => hne u hu ?_⟩
    rwa [String.toList_injective huw]
  rw [kw_eq]
  refine found_token_eq_none _ before ?_
  rwa [raise_append, raise_eq_self fun c hc => (hwords w hw c hc).1]

/-- No keyword is taken where no word begins. -/
theorem found_kw_eq_none_of_no_word (before : List Char) (h : Heads [""] rest) {k : Keyword}
    (hne : ∀ u ∈ k.words, u ∉ [""]) : found (Ddl.kw k) (.place before rest) = none :=
  found_kw_eq_none before h (by decide) hne

/-! ## Marks -/

theorem Takes.mark {c : Char} (before : List Char) (hc : c.isAlpha = false)
    (hgap : ∀ d ∈ gap, Scan.isSpace d = true) (hrest : Settled rest) : Takes (mark c) before (c :: gap) rest [] := by
  have hupper : raise [c] = [c] := by simpa using (toUpper_eq_iff hc).2 rfl
  have h : found (Ddl.mark c) (.place before ([c] ++ (gap ++ rest)))
      = some ([], .place (before ++ [c]) (gap ++ rest)) := by
    refine found_silent _ ?_
    rw [raise_append, hupper]
    exact Scan.word_append [c] (raise (gap ++ rest))
  have hskip : (Cursor.place (before ++ [c]) (gap ++ rest)).skip
      = .place (before ++ [c] ++ gap) rest := Cursor.skip_place hgap hrest
  rw [List.append_assoc] at hskip
  exact ⟨_, h, hskip⟩

theorem found_mark_eq_none {d : Char} (before : List Char) (hd : d.isAlpha = false)
    (h : ∀ c ∈ rest.head?, c ≠ d) : found (Ddl.mark d) (.place before rest) = none := by
  refine found_silent_eq_none before ?_
  cases rest with
  | nil => rfl
  | cons c cs =>
    have hne : ¬d = c.toUpper := fun hdc => h c (by simp) ((toUpper_eq_iff hd).1 hdc.symm)
    simp [Scan.word, List.isPrefixOf?, hne]

end Expr

/-! ## Quotes -/

namespace Scan

/-- In backticks a text without backticks stands for itself. -/
theorem backtickEnd_append {name rest : List Char} (hname : '`' ∉ name)
    (hrest : rest.head? ≠ some '`') :
    backtickEnd (name ++ '`' :: rest) = some (name ++ ['`'], rest) := by
  induction name with
  | nil =>
    cases rest with
    | nil => rfl
    | cons d cs =>
      have hd : d ≠ '`' := by simpa using hrest
      simp [backtickEnd, hd]
  | cons c name ih =>
    simp only [List.mem_cons, not_or] at hname
    obtain ⟨d, ds, hds⟩ : ∃ d ds, name ++ '`' :: rest = d :: ds := by
      cases name <;> exact ⟨_, _, rfl⟩
    rw [List.cons_append, hds, backtickEnd, if_neg (Ne.symm hname.1), ← hds, ih hname.2]
    rfl

theorem identifier_backticked {name rest : List Char} (hname : '`' ∉ name)
    (hrest : rest.head? ≠ some '`') :
    identifier ('`' :: (name ++ '`' :: rest)) = some ('`' :: (name ++ ['`']), rest) := by
  have hword := word_append ['`'] (name ++ '`' :: rest)
  have h : quotedIdent ('`' :: (name ++ '`' :: rest)) = some ('`' :: (name ++ ['`']), rest) := by
    simp only [quotedIdent, chain]
    rw [show word ['`'] ('`' :: (name ++ '`' :: rest)) = _ from hword]
    simp [backtickEnd_append hname hrest]
  simp [identifier, either, h]

/-- An escaped value runs up to the closing quote and no further. -/
theorem stringEnd_escape {q : Char} {value rest : List Char} (hq : q ≠ '\\')
    (hrest : rest.head? ≠ some q) :
    stringEnd q (Sql.escape q value ++ q :: rest) = some (Sql.escape q value ++ [q], rest) := by
  induction value with
  | nil =>
    cases rest with
    | nil => simp [Sql.escape, Sql.double, stringEnd]
    | cons d cs =>
      have hd : d ≠ q := by simpa using hrest
      simp [Sql.escape, Sql.double, stringEnd, hq, hd]
  | cons c value ih =>
    rw [Sql.escape_cons hq]
    by_cases hback : c = '\\'
    · rw [if_pos (.inr hback), List.cons_append, List.cons_append, stringEnd, if_pos hback, ih]
      rfl
    by_cases hc : c = q
    · rw [if_pos (.inl hc), List.cons_append, List.cons_append, stringEnd, if_neg hback, if_pos hc,
        if_pos hc, ih]
      rfl
    · obtain ⟨d, ds, hds⟩ : ∃ d ds, Sql.escape q value ++ q :: rest = d :: ds := by
        cases Sql.escape q value <;> exact ⟨_, _, rfl⟩
      rw [if_neg (not_or.2 ⟨hc, hback⟩), List.cons_append, hds, stringEnd, if_neg hback, if_neg hc,
        ← hds, ih]
      rfl

theorem stringLiteral_literal {q : Char} (hq : q = '\'' ∨ q = '"') (value : List Char)
    {rest : List Char} (hrest : rest.head? ≠ some q) :
    stringLiteral (Sql.literal q value ++ rest) = some (Sql.literal q value, rest) := by
  have hback : q ≠ '\\' := by rcases hq with rfl | rfl <;> decide
  have htext : Sql.literal q value ++ rest = [q] ++ (Sql.escape q value ++ q :: rest) := by
    simp [Sql.literal]
  have hchain : chain (word [q]) (stringEnd q) (Sql.literal q value ++ rest)
      = some (Sql.literal q value, rest) := by
    rw [htext, chain, word_append]
    simp only [stringEnd_escape hback hrest]
    rfl
  rcases hq with rfl | rfl
  · rw [stringLiteral, either, hchain, Option.some_or]
  · have hsingle : chain (word ['\'']) (stringEnd '\'') (Sql.literal '"' value ++ rest) = none := by
      rfl
    rw [stringLiteral, either, hchain, hsingle, Option.none_or]

/-! ## Numbers -/

/-- Neither a character of identifiers nor a point begins the text. -/
def EndsNumber (rest : List Char) : Prop :=
  ∀ c ∈ rest.head?, isIdentChar c = false ∧ c ≠ '.'

theorem run_append {p : Char → Bool} {cs rest : List Char} (hcs : ∀ c ∈ cs, p c = true)
    (hrest : ∀ c ∈ rest.head?, p c = false) : run p (cs ++ rest) = some (cs, rest) := by
  have hnone : rest.takeWhile p = [] ∧ rest.dropWhile p = rest := by
    cases rest with
    | nil => exact ⟨rfl, rfl⟩
    | cons c rest => simp [hrest c (by simp)]
  rw [run, List.takeWhile_append_of_pos hcs, List.dropWhile_append_of_pos hcs, hnone.1, hnone.2,
    List.append_nil]

theorem run1_append {p : Char → Bool} {cs rest : List Char} (hne : cs ≠ [])
    (hcs : ∀ c ∈ cs, p c = true) (hrest : ∀ c ∈ rest.head?, p c = false) :
    run1 p (cs ++ rest) = some (cs, rest) := by
  cases cs with
  | nil => exact absurd rfl hne
  | cons c cs =>
    have htail := run_append (fun d hd => hcs d (List.mem_cons_of_mem _ hd)) hrest
    simp [run1, chain, one, hcs c (List.mem_cons_self ..), htail]

theorem word_eq_none {d : Char} {cs : List Char} (w : List Char) (h : ∀ c ∈ cs.head?, c ≠ d) :
    word (d :: w) cs = none := by
  cases cs with
  | nil => simp [word, List.isPrefixOf?]
  | cons c cs => simp [word, List.isPrefixOf?, Ne.symm (h c (by simp))]

theorem number_digits {digits rest : List Char} (hne : digits ≠ [])
    (hdigits : ∀ c ∈ digits, c.isDigit = true) (hrest : EndsNumber rest) :
    number (digits ++ rest) = some (digits, rest) := by
  have hdigit : ∀ c ∈ rest.head?, c.isDigit = false := by
    intro c hc
    refine Bool.eq_false_iff.2 fun h => ?_
    have := (hrest c hc).1
    simp [isIdentChar_of_isDigit h] at this
  have hletter : ∀ d, isIdentChar d = true → ∀ c ∈ rest.head?, c ≠ d := by
    rintro d hd c hc rfl
    simp [(hrest c hc).1] at hd
  have hhex : chain (word ['0', 'X']) (run1 isHexDigit) (digits ++ rest) = none := by
    cases hw : word ['0', 'X'] (digits ++ rest) with
    | none => simp [chain, hw]
    | some cut =>
      -- the second character is a digit or follows the digits
      obtain ⟨lexeme, more⟩ := cut
      have happ := (word_eq_some.1 hw).2
      match digits, hne with
      | [_], _ =>
        simp only [List.cons_append, List.nil_append, List.cons.injEq] at happ
        exact absurd rfl (hletter 'X' (by decide) 'X' (by simp [happ.2]))
      | _ :: c :: _, _ =>
        simp only [List.cons_append, List.cons.injEq] at happ
        have hc := hdigits c (by simp)
        rw [happ.2.1] at hc
        exact absurd hc (by decide)
  have hpoint : word ['.'] rest = none := word_eq_none _ fun c hc => (hrest c hc).2
  have hexponent : word ['E'] rest = none := word_eq_none _ (hletter 'E' (by decide))
  rw [number, either, hhex, Option.none_or]
  simp [either, chain, maybe, all, run1_append hne hdigits hdigit, hpoint, hexponent]

/-- A number in digits, with or without a minus sign, is taken up to its last digit. -/
theorem signedNumber_digits {sign digits rest : List Char} (hsign : sign = [] ∨ sign = ['-'])
    (hne : digits ≠ []) (hdigits : ∀ c ∈ digits, c.isDigit = true) (hrest : EndsNumber rest) :
    signedNumber (sign ++ (digits ++ rest)) = some (sign ++ digits, rest) := by
  have hnumber := number_digits hne hdigits hrest
  rcases hsign with rfl | rfl
  · cases digits with
    | nil => exact absurd rfl hne
    | cons c digits =>
      have hc := hdigits c (List.mem_cons_self ..)
      have hsign : (c == '-' || c == '+') = false := by
        refine Bool.eq_false_iff.2 fun h => ?_
        rcases (by simpa using h : c = '-' ∨ c = '+') with rfl | rfl <;> exact absurd hc (by decide)
      simp only [List.cons_append] at hnumber
      simp [signedNumber, chain, maybe, Scan.sign, one, hsign, hnumber]
  · simp [signedNumber, chain, maybe, Scan.sign, one, hnumber]

/-- The current time without a precision. -/
theorem currentTimestamp_append {gap rest : List Char} (hend : EndsWord (gap ++ rest))
    (hgap : ∀ c ∈ gap, isSpace c = true) (hrest : ∀ c ∈ rest.head?, isSpace c = false ∧ c ≠ '(') :
    currentTimestamp ("CURRENT_TIMESTAMP".toList ++ (gap ++ rest))
      = some ("CURRENT_TIMESTAMP".toList, gap ++ rest) := by
  have hkeyword := keyword_append "CURRENT_TIMESTAMP" ["LOCALTIMESTAMP", "LOCALTIME", "NOW"] hend
  have hspace : run isSpace (gap ++ rest) = some (gap, rest) :=
    run_append hgap fun c hc => (hrest c hc).1
  have hparen : word ['('] rest = none := word_eq_none _ fun c hc => (hrest c hc).2
  rw [currentTimestamp, chain, hkeyword]
  simp [maybe, all, chain, hspace, hparen]

/-- The name of a type. -/
theorem typeName_append {c : Char} {cs rest : List Char} (hc : c.isAlpha = true)
    (hcs : ∀ d ∈ cs, isWordChar d = true) (hrest : EndsWord rest) :
    typeName (c :: cs ++ rest) = some (c :: cs, rest) := by
  have hend : ∀ d ∈ rest.head?, isWordChar d = false := by
    intro d hd
    have hident := hrest d hd
    simp only [isIdentChar, Bool.or_eq_false_iff] at hident
    simp [isWordChar, hident.1.1]
  have htail := run_append (p := isWordChar) hcs hend
  have hword : (fun c : Char => c.isAlphanum || c == '_') = isWordChar := rfl
  simp only [typeName, chain, hword, List.cons_append, one, hc, ↓reduceIte]
  rw [htail]
  rfl

end Scan

namespace Scan

theorem identifier_bare {word rest : List Char} (hne : word ≠ [])
    (hword : ∀ c ∈ word, isIdentChar c = true) (hrest : EndsWord rest) :
    identifier (word ++ rest) = some (word, rest) := by
  have hquoted : quotedIdent (word ++ rest) = none := by
    have hhead : ∀ c ∈ (word ++ rest).head?, c ≠ '`' := by
      rintro c hc rfl
      cases word with
      | nil => exact hne rfl
      | cons d word =>
        have hd := hword d (List.mem_cons_self ..)
        rw [show d = '`' by simpa using hc] at hd
        exact absurd hd (by decide)
    rw [quotedIdent, chain, word_eq_none _ hhead]
  rw [identifier, either, hquoted, Option.none_or]
  exact run1_append hne hword hrest

end Scan

/-! ## Tokens of other forms at a place -/

namespace Expr

variable {gap rest : List Char}

theorem found_bare (before word : List Char) (hne : word ≠ [])
    (hword : ∀ c ∈ word, Scan.isIdentChar c = true) (hrest : EndsWord rest) :
    found Ddl.identifier (.place before (word ++ rest))
        = some ([.node .identifier (width before) (width before + width word) []],
          .place (before ++ word) rest)
      ∧ found Ddl.bareIdent (.place before (word ++ rest))
        = some ([.node .bareIdent (width before) (width before + width word) []],
          .place (before ++ word) rest) := by
  have hne : raise word ≠ [] := by simpa [raise] using hne
  have hword : ∀ c ∈ raise word, Scan.isIdentChar c = true := by simpa [raise] using hword
  refine ⟨found_token _ _ ?_, found_token _ _ ?_⟩ <;> rw [raise_append]
  · exact Scan.identifier_bare hne hword (endsWord_raise hrest)
  · exact Scan.run1_append hne hword (endsWord_raise hrest)

theorem Takes.backticked (before : List Char) {name : List Char} (hname : '`' ∉ name)
    (hgap : Parted gap rest) :
    Takes Ddl.identifier before ('`' :: (name ++ ['`']) ++ gap) rest
      [.node .identifier (width before) (width before + width ('`' :: (name ++ ['`']))) []] := by
  refine Takes.of_found (found_token _ _ ?_) hgap
  have hend : (raise (gap ++ rest)).head? ≠ some '`' := by
    cases hcs : gap ++ rest with
    | nil => simp
    | cons c cs =>
      have hc := (hgap.ends c (by simp [hcs])).2
      simpa [toUpper_eq_iff (d := '`') rfl] using fun h : c = '`' => hc (by simp [h])
  have hnameUp : '`' ∉ raise name := by rwa [mem_raise_iff rfl]
  have h := Scan.identifier_backticked hnameUp hend
  simpa using h

theorem raise_double {q : Char} (hq : q.isAlpha = false) (cs : List Char) :
    raise (Sql.double q cs) = Sql.double q (raise cs) := by
  have hself : q.toUpper = q := (toUpper_eq_iff hq).2 rfl
  induction cs with
  | nil => rfl
  | cons c cs ih =>
    simp only [Sql.double, raise_cons, List.flatMap_cons, raise_append, toUpper_eq_iff hq] at ih ⊢
    rw [ih]
    split <;> simp [hself]

/-- Capitals leave the quotes and the backslashes where they stand. -/
theorem raise_literal {q : Char} (hq : q.isAlpha = false) (value : List Char) :
    raise (Sql.literal q value) = Sql.literal q (raise value) := by
  have hself : q.toUpper = q := (toUpper_eq_iff hq).2 rfl
  simp [Sql.literal, Sql.escape, raise_double hq, raise_double (q := '\\') rfl, hself]

theorem found_literal {q : Char} (hq : q = '\'' ∨ q = '"') (before value : List Char)
    (hrest : ∀ c ∈ rest.head?, c ≠ q) :
    found Ddl.stringLiteral (.place before (Sql.literal q value ++ rest))
      = some ([.node .stringLiteral (width before) (width before + width (Sql.literal q value)) []],
          .place (before ++ Sql.literal q value) rest) := by
  have halpha : q.isAlpha = false := by rcases hq with rfl | rfl <;> decide
  refine found_token _ _ ?_
  have hend : (raise rest).head? ≠ some q := by
    cases rest with
    | nil => simp
    | cons c cs => simpa [toUpper_eq_iff halpha] using hrest c (by simp)
  rw [raise_append, raise_literal halpha]
  exact Scan.stringLiteral_literal hq (raise value) hend

/-- Neither the current time nor a parenthesis stands where no letter of theirs does. -/
theorem found_currentTimestamp_eq_none {c : Char} (before cs : List Char)
    (hc : c.toUpper ∉ ['C', 'L', 'N']) :
    found Ddl.currentTimestamp (.place before (c :: cs)) = none := by
  simp only [List.mem_cons, List.not_mem_nil, or_false, not_or] at hc
  refine found_token_eq_none _ before ?_
  simp [Scan.currentTimestamp, Scan.keyword, Scan.chain, Scan.first, Scan.either, Scan.word,
    List.isPrefixOf?, Ne.symm hc.1, Ne.symm hc.2.1, Ne.symm hc.2.2]

theorem found_parenExpr_eq_none {c : Char} (before cs : List Char) (hc : c ≠ '(') :
    found Ddl.parenExpr (.place before (c :: cs)) = none := by
  have hne : '(' ≠ c.toUpper := fun h => hc ((toUpper_eq_iff rfl).1 h.symm)
  refine found_token_eq_none _ before ?_
  simp [Scan.parenExpr, Scan.chain, Scan.word, List.isPrefixOf?, hne]

theorem found_signedNumber_eq_none {c : Char} (before cs : List Char)
    (hdigit : c.toUpper.isDigit = false) (hc : c.toUpper ∉ ['-', '+', '.']) :
    found Ddl.signedNumber (.place before (c :: cs)) = none := by
  simp only [List.mem_cons, List.not_mem_nil, or_false, not_or] at hc
  have hzero : '0' ≠ c.toUpper := by
    intro h
    rw [← h] at hdigit
    exact absurd hdigit (by decide)
  refine found_token_eq_none _ before ?_
  simp [Scan.signedNumber, Scan.number, Scan.maybe, Scan.sign, Scan.one, Scan.either, Scan.chain,
    Scan.word, Scan.run1, List.isPrefixOf?, hdigit, hc.1, hc.2.1, Ne.symm hc.2.2, hzero]

theorem found_stringLiteral_eq_none {c : Char} (before cs : List Char) (hc : c ∉ ['\'', '"']) :
    found Ddl.stringLiteral (.place before (c :: cs)) = none := by
  simp only [List.mem_cons, List.not_mem_nil, or_false, not_or] at hc
  have hsingle : '\'' ≠ c.toUpper := fun h => hc.1 ((toUpper_eq_iff rfl).1 h.symm)
  have hdouble : '"' ≠ c.toUpper := fun h => hc.2 ((toUpper_eq_iff rfl).1 h.symm)
  refine found_token_eq_none _ before ?_
  simp [Scan.stringLiteral, Scan.either, Scan.chain, Scan.word, List.isPrefixOf?, hsingle, hdouble]

theorem found_bareIdent_eq_none {c : Char} (before cs : List Char)
    (hc : Scan.isIdentChar c = false) : found Ddl.bareIdent (.place before (c :: cs)) = none := by
  refine found_token_eq_none _ before ?_
  simp [Scan.bareIdent, Scan.run1, Scan.chain, Scan.one, hc]

theorem found_currentTimestamp (before : List Char) (hgap : Parted gap rest)
    (hrest : ∀ c ∈ rest.head?, c ≠ '(') :
    found Ddl.currentTimestamp (.place before ("CURRENT_TIMESTAMP".toList ++ (gap ++ rest)))
      = some ([.node .currentTimestamp (width before)
            (width before + width "CURRENT_TIMESTAMP".toList) []],
          .place (before ++ "CURRENT_TIMESTAMP".toList) (gap ++ rest)) := by
  refine found_token _ _ ?_
  have hspace : ∀ c ∈ raise gap, Scan.isSpace c = true := by
    simpa [raise] using hgap.space
  have hend : EndsWord (raise gap ++ raise rest) := by
    rw [← raise_append]
    exact endsWord_raise hgap.endsWord
  have hnext : ∀ c ∈ (raise rest).head?, Scan.isSpace c = false ∧ c ≠ '(' := by
    cases rest with
    | nil => simp
    | cons c cs =>
      have hc := hgap.settled.head c (by simp)
      simpa [toUpper_eq_iff (d := '(') rfl, hc] using hrest c (by simp)
  have hkeep : raise "CURRENT_TIMESTAMP".toList = "CURRENT_TIMESTAMP".toList := by decide
  rw [raise_append, raise_append, hkeep]
  exact Scan.currentTimestamp_append hend hspace hnext

theorem found_digits (before : List Char) {sign digits : List Char}
    (hsign : sign = [] ∨ sign = ['-']) (hne : digits ≠ [])
    (hdigits : ∀ c ∈ digits, c.isDigit = true) (hrest : Scan.EndsNumber rest) :
    found Ddl.signedNumber (.place before (sign ++ digits ++ rest))
      = some ([.node .signedNumber (width before) (width before + width (sign ++ digits)) []],
          .place (before ++ (sign ++ digits)) rest) := by
  refine found_token _ _ ?_
  have hend : Scan.EndsNumber (raise rest) := by
    cases rest with
    | nil => exact hrest
    | cons c cs =>
      simpa [Scan.EndsNumber, toUpper_eq_iff (d := '.') rfl] using hrest c (by simp)
  have hkeep : raise (sign ++ digits) = sign ++ digits := by
    refine raise_eq_self fun c hc => ?_
    rcases List.mem_append.1 hc with hc | hc
    · rcases hsign with rfl | rfl
      · simp at hc
      · rw [List.mem_singleton.1 hc]
        rfl
    · exact toUpper_of_isDigit (hdigits c hc)
  have h := Scan.signedNumber_digits hsign hne hdigits hend
  rw [raise_append, hkeep, List.append_assoc]
  exact h

end Expr

end GoScaffold.Grammar
