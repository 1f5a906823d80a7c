import GoScaffold.Proofs.Grammar.Yields
import GoScaffold.Proofs.Text.Places

set_option autoImplicit false

/-! # Where failures stand

A failure is told where the furthest rule was tried in vain. Rules are only tried at places of the text:
at its start, after a lexeme, and after the white space and comments that are skipped. So the record of
failures never leaves them, whatever alternatives are given up and whatever is looked ahead at
(`Expr.isPlace_run`), and the failure of a parse stands at one (`isPlace_of_parse`). -/

namespace GoScaffold.Grammar

open Text

variable {text : List Char} {c : Cursor} {reach before : Reach}

theorem Cursor.IsIn.isPlace (h : c.IsIn text) : IsPlace text c.offset := by
  obtain ⟨front, rfl, hoffset⟩ := h
  exact hoffset ▸ isPlace_width front c.rest

/-! ## The record -/

namespace Reach

/-- A rule is recorded where it was tried, or the record stays where it was. -/
theorem offset_record (reach before : Reach) (rule : Rule) (offset : Nat) (inverted : Bool) :
    (reach.record before rule offset inverted).offset = reach.offset
      ∨ (reach.record before rule offset inverted).offset = offset := by
  unfold record
  split
  · exact Or.inl rfl
  · split
    · exact Or.inl rfl
    · refine Or.inr ?_
      -- Whichever rules are kept, the record is moved to the rule.
      cases inverted <;> by_cases hoffset : offset = before.offset <;> simp [hoffset]

theorem isPlace_settle (rule : Rule) (inverted matched : Bool) {offset : Nat}
    (hreach : IsPlace text reach.offset) (hoffset : IsPlace text offset) :
    IsPlace text (reach.settle before rule offset inverted matched).offset := by
  unfold settle
  split
  · rcases offset_record reach before rule offset inverted with h | h
    · rwa [h]
    · rwa [h]
  · exact hreach

end Reach

/-! ## Matching -/

namespace Expr

variable {e : Expr}

/-- What is matched leads to a place of the text. -/
theorem isIn_of_run (hcuts : e.Cuts) (inverted : Bool) (hc : c.IsIn text) (reach : Reach) :
    ∀ found ∈ (run e inverted c reach).1, found.2.IsIn text := by
  intro found hfound
  rw [run_fst] at hfound
  exact (yields_of_found hcuts hc hfound).2

/-- Rounds that each keep the cursor and the record in the text keep them there together. -/
theorem isPlace_again {step : Cursor → Reach → Outcome}
    (hstep : ∀ ⦃c : Cursor⦄ ⦃reach : Reach⦄, c.IsIn text → IsPlace text reach.offset →
      IsPlace text (step c reach).2.offset ∧ ∀ found ∈ (step c reach).1, found.2.IsIn text)
    (n : Nat) (hc : c.IsIn text) (hreach : IsPlace text reach.offset) :
    IsPlace text (again step n c reach).2.2.offset := by
  induction n generalizing c reach with
  | zero => exact hreach
  | succ n ih =>
    obtain ⟨hplace, hnext⟩ := hstep hc.skip hreach
    rw [again]
    generalize step c.skip reach = outcome at hplace hnext
    rcases outcome with ⟨_ | ⟨ts, d⟩, after⟩
    · exact hplace
    · exact ih (hnext _ rfl) hplace

/-- From a place of the text, matching leaves the record at a place of the text. -/
theorem isPlace_run (hcuts : e.Cuts) (inverted : Bool) (hc : c.IsIn text)
    (hreach : IsPlace text reach.offset) : IsPlace text (run e inverted c reach).2.offset := by
  induction e generalizing inverted c reach with
  | start | silent s => exact hreach
  | token r s => exact Reach.isPlace_settle r inverted _ hreach hc.isPlace
  | phrase r e ih => exact Reach.isPlace_settle r inverted _ (ih hcuts inverted hc hreach) hc.isPlace
  | seq a b iha ihb =>
    have ha := iha hcuts.1 inverted hc hreach
    have hnext := isIn_of_run hcuts.1 inverted hc reach
    rw [run]
    generalize run a inverted c reach = outcome at ha hnext
    rcases outcome with ⟨_ | ⟨ts, d⟩, after⟩
    · exact ha
    · have hb := ihb hcuts.2 inverted (hnext _ rfl).skip ha
      simp only
      generalize run b inverted d.skip after = outcome at hb
      rcases outcome with ⟨_ | ⟨us, f⟩, last⟩ <;> exact hb
  | alt a b iha ihb =>
    have ha := iha hcuts.1 inverted hc hreach
    rw [run]
    generalize run a inverted c reach = outcome at ha
    rcases outcome with ⟨_ | found, after⟩
    · exact ihb hcuts.2 inverted hc ha
    · exact ha
  | opt e ih =>
    have he := ih hcuts inverted hc hreach
    rw [run]
    generalize run e inverted c reach = outcome at he
    rcases outcome with ⟨_ | found, after⟩ <;> exact he
  | many e ih =>
    have he := ih hcuts inverted hc hreach
    have hnext := isIn_of_run (e := e) hcuts inverted hc reach
    rw [run]
    generalize run e inverted c reach = outcome at he hnext
    rcases outcome with ⟨_ | ⟨ts, d⟩, after⟩
    · exact he
    · exact isPlace_again
        (fun _ reach hplace hrecord => ⟨ih hcuts inverted hplace hrecord,
          isIn_of_run (e := e) hcuts inverted hplace reach⟩)
        (d.rest.length + 1) (hnext _ rfl) he
  | never e ih =>
    have he := ih hcuts (!inverted) hc hreach
    rw [run]
    generalize run e (!inverted) c reach = outcome at he
    rcases outcome with ⟨_ | found, after⟩ <;> exact he

end Expr

/-- A parse that fails stands at a place of the text. -/
theorem isPlace_of_parse {e : Expr} {failure : Failure} (hcuts : e.Cuts)
    (h : parse e text = .error failure) : IsPlace text failure.offset := by
  have hstart : Cursor.IsIn text ⟨0, text⟩ := ⟨[], rfl, rfl⟩
  have hplace : IsPlace text (e.run false ⟨0, text⟩ Reach.none).2.offset :=
    Expr.isPlace_run hcuts false hstart hstart.isPlace
  rw [parse] at h
  generalize e.run false ⟨0, text⟩ Reach.none = outcome at h hplace
  rcases outcome with ⟨_ | ⟨ts, d⟩, reach⟩
  · obtain rfl := Except.error.inj h
    exact hplace
  · cases h

end GoScaffold.Grammar
