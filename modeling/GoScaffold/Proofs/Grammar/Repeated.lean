import GoScaffold.Proofs.Grammar.Token
import Mathlib.Data.List.Forall2

set_option autoImplicit false

/-! # Repeated phrases at a place of a text

Items that are written one after another, with blanks or commas between them, are taken one after
another. `Follows gap rest` says what may follow an item: white space and then what comes next;
`Says whole a t` says what the tree `t` of the item `a` means in the whole text. -/

namespace GoScaffold.Grammar.Expr

open Text

theorem shorter {before after piece rest : List Char} (hne : piece ≠ []) :
    (Cursor.place after rest).rest.length < (Cursor.place before (piece ++ rest)).rest.length := by
  have := List.length_pos_iff.2 hne
  simp only [Cursor.place, length_raise, List.length_append]
  omega

theorem Takes.many_one {e : Expr} {before piece rest : List Char} {ts : List Tree}
    (h : Takes e before piece rest ts) (hne : piece ≠ []) (hrest : Settled rest)
    (hfails : found e (.place (before ++ piece) rest) = none) :
    Takes (.many e) before piece rest ts := by
  have hchain := Chain.step h (shorter hne) (.stop hfails (Cursor.skip_place_of_settled hrest))
  rw [List.append_nil] at hchain
  exact hchain.many

theorem Takes.many_two {e : Expr} {before piece next rest : List Char} {ts us : List Tree}
    (h : Takes e before piece (next ++ rest) ts) (hnext : Takes e (before ++ piece) next rest us)
    (hne : piece ≠ [] ∧ next ≠ []) (hrest : Settled rest)
    (hfails : found e (.place (before ++ piece ++ next) rest) = none) :
    Takes (.many e) before (piece ++ next) rest (ts ++ us) := by
  have hlast := Chain.step hnext (shorter hne.2) (.stop hfails (Cursor.skip_place_of_settled hrest))
  have hchain := Chain.step h (shorter hne.1) hlast
  rw [List.append_nil] at hchain
  unfold Takes
  rw [List.append_assoc, ← List.append_assoc before]
  exact hchain.many

section

variable {α : Type} {e : Expr} {text : α → List Char} {sep gap rest : List Char}
  {Follows : List Char → List Char → Prop} (Says : List Char → α → Tree → Prop)

/-- Items with a blank before each: the first blank goes to what stands before them. -/
theorem chain_blanks
    (hitem : ∀ a before gap rest, Follows gap rest → ∃ t, Takes e before (text a ++ gap) rest [t]
      ∧ Says (before ++ (text a ++ (gap ++ rest))) a t)
    (hne : ∀ a, text a ≠ [])
    (hblank : ∀ a gap rest, Follows gap rest → Follows [' '] (text a ++ (gap ++ rest)))
    (hend : Follows gap rest) (hlast : Settled rest)
    (hfails : ∀ before, found e (.place before rest) = none) (as : List α) (before : List Char) :
    ∃ us lead body,
      (as.flatMap fun b => ' ' :: text b) ++ gap = lead ++ body
      ∧ Follows lead (body ++ rest)
      ∧ Chain e (.place (before ++ lead) (body ++ rest)) (.place (before ++ (lead ++ body)) rest) us
      ∧ List.Forall₂ (Says (before ++ (lead ++ body ++ rest))) as us := by
  -- By the items, from the last: what follows an item is known once those after it are written.
  induction as generalizing before with
  | nil =>
    refine ⟨[], gap, [], by simp, by simpa using hend, ?_, .nil⟩
    simpa using Chain.stop (hfails (before ++ gap)) (Cursor.skip_place_of_settled hlast)
  | cons b bs ih =>
    obtain ⟨us, lead, body, hbody, hfollows, hchain, hus⟩ := ih (before ++ ' ' :: text b)
    obtain ⟨u, hu, hsays⟩ := hitem b (before ++ [' ']) lead (body ++ rest) hfollows
    refine ⟨u :: us, [' '], text b ++ (lead ++ body), by simp [← hbody],
      by simpa using hblank b lead (body ++ rest) hfollows, ?_,
      .cons (by simpa using hsays) (by simpa using hus)⟩
    have hpiece : text b ++ lead ≠ [] := by simp [hne b]
    simpa [Takes] using Chain.step hu (shorter hpiece) (by simpa using hchain)

section

variable (hsep : ∀ c ∈ sep, Scan.isSpace c = true)
  (hitem : ∀ a before gap rest, Follows gap rest → ∃ t, Takes e before (text a ++ gap) rest [t]
    ∧ Says (before ++ (text a ++ (gap ++ rest))) a t)
  (hsettled : ∀ a cs, Settled (text a ++ cs)) (hcomma : ∀ cs, Follows [] (',' :: cs))
  (hend : Follows gap rest) (hlast : Settled rest) (hmark : ∀ c ∈ rest.head?, c ≠ ',')

include hsep hitem hsettled hcomma hend hlast hmark

/-- Items with a comma and `sep` before each but the first. -/
theorem chain_commas (a : α) (as : List α) (before : List Char) :
    ∃ t us lead body,
      (as.flatMap fun b => ',' :: (sep ++ text b)) ++ gap = lead ++ body
      ∧ Takes e before (text a ++ lead) (body ++ rest) [t]
      ∧ Chain (Ddl.mark ',' >> e) (.place (before ++ (text a ++ lead)) (body ++ rest))
        (.place (before ++ (text a ++ lead ++ body)) rest) us
      ∧ List.Forall₂ (Says (before ++ (text a ++ (lead ++ body ++ rest)))) (a :: as) (t :: us) := by
  induction as generalizing a before with
  | nil =>
    obtain ⟨t, ht, hsays⟩ := hitem a before gap rest hend
    refine ⟨t, [], gap, [], by simp, by simpa using ht, ?_, by simpa using hsays⟩
    have hfails : found (Ddl.mark ',' >> e) (.place (before ++ (text a ++ gap)) rest) = none := by
      simp [found, found_mark_eq_none _ (d := ',') rfl hmark]
    simpa using Chain.stop hfails (Cursor.skip_place_of_settled hlast)
  | cons b bs ih =>
    obtain ⟨u, us, lead, body, hbody, hu, hchain, hus⟩ := ih b (before ++ text a ++ ',' :: sep)
    -- A comma follows at once, so this item leaves no gap.
    obtain ⟨t, ht, hsays⟩ := hitem a before [] (',' :: (sep ++ (text b ++ (lead ++ body) ++ rest)))
      (hcomma _)
    refine ⟨t, u :: us, [], ',' :: (sep ++ (text b ++ (lead ++ body))), by simp [← hbody],
      by simpa using ht, ?_, .cons (by simpa using hsays) (by simpa using hus)⟩
    have hmark : Takes (Ddl.mark ',') (before ++ text a) (',' :: sep)
        (text b ++ lead ++ (body ++ rest)) [] :=
      .mark _ rfl hsep (by simpa using hsettled b (lead ++ (body ++ rest)))
    have hfirst := hmark.seq hu
    have hpiece : ',' :: sep ++ (text b ++ lead) ≠ [] := by simp
    simpa [Takes] using Chain.step hfirst (shorter hpiece) (by simpa using hchain)

/-- A list of items with commas between them. -/
theorem Takes.list (a : α) (as : List α) (before : List Char) :
    ∃ ts, Takes (Ddl.list e) before
        (text a ++ ((as.flatMap fun b => ',' :: (sep ++ text b)) ++ gap)) rest ts
      ∧ List.Forall₂
        (Says (before ++ (text a ++ ((as.flatMap fun b => ',' :: (sep ++ text b)) ++ gap ++ rest))))
        (a :: as) ts := by
  obtain ⟨t, us, lead, body, hbody, ht, hchain, hsays⟩ :=
    chain_commas Says hsep hitem hsettled hcomma hend hlast hmark a as before
  rw [hbody]
  have hmany : Takes (.many (Ddl.mark ',' >> e)) (before ++ (text a ++ lead)) body rest us := by
    simpa [Takes] using hchain.many
  exact ⟨_, by simpa [Ddl.list] using ht.seq hmany, by simpa using hsays⟩

end

end

end GoScaffold.Grammar.Expr
