import GoScaffold.Proofs.Sql.Declaring
import GoScaffold.Sql.Quoted

set_option autoImplicit false

/-! # Texts that differ in case

Two texts are spelled alike where raising them to ASCII capitals gives one text. All that is done to
a text before it is compared with another looks at characters without regard to case: trimming,
taking off quotes and writing doubled ones once commute with raising. So texts that are spelled alike
hold the same at every place (`Span.exists_slice`), the names in them are spelled alike
(`raise_unquoteIdentifier`), and either both declare a table or none does
(`isTableDeclaration_congr`). -/

namespace GoScaffold.Text

/-! ## Trimming and cutting -/

theorem raise_dropWhile {p : Char → Bool} (hp : ∀ c, p c.toUpper = p c) (cs : List Char) :
    raise (cs.dropWhile p) = (raise cs).dropWhile p := by
  induction cs with
  | nil => rfl
  | cons c cs ih =>
    rw [raise_cons, List.dropWhile_cons, List.dropWhile_cons, hp]
    split
    · exact ih
    · rfl

theorem raise_dropEndWhile {p : Char → Bool} (hp : ∀ c, p c.toUpper = p c) (cs : List Char) :
    raise (dropEndWhile p cs) = dropEndWhile p (raise cs) := by
  induction cs with
  | nil => rfl
  | cons c cs ih =>
    rw [raise_cons, dropEndWhile, dropEndWhile, ← ih]
    cases dropEndWhile p cs with
    | nil =>
      simp only [raise_nil, hp]
      split <;> rfl
    | cons d ds => rfl

theorem raise_trimWhere {p : Char → Bool} (hp : ∀ c, p c.toUpper = p c) (cs : List Char) :
    raise (trimWhere p cs) = trimWhere p (raise cs) := by
  rw [trimWhere, trimWhere, raise_dropEndWhile hp, raise_dropWhile hp]

theorem raise_trimBlank (cs : List Char) : raise (trimBlank cs) = trimBlank (raise cs) :=
  raise_trimWhere Sql.isBlank_toUpper cs

theorem dropLastChar?_raise {d : Char} (hd : d.isAlpha = false) (cs : List Char) :
    dropLastChar? d (raise cs) = (dropLastChar? d cs).map raise := by
  induction cs with
  | nil => rfl
  | cons c cs ih =>
    cases cs with
    | nil =>
      simp only [raise_cons, raise_nil, dropLastChar?, toUpper_eq_iff hd]
      split <;> rfl
    | cons e es =>
      simp only [raise_cons] at ih
      simp only [raise_cons, dropLastChar?, ih, Option.map_map]
      rfl

theorem between?_raise {opening closing : Char} (hopening : opening.isAlpha = false)
    (hclosing : closing.isAlpha = false) (cs : List Char) :
    between? opening closing (raise cs) = (between? opening closing cs).map raise := by
  cases cs with
  | nil => rfl
  | cons c cs =>
    simp only [raise_cons, between?, toUpper_eq_iff hopening]
    split
    · exact dropLastChar?_raise hclosing cs
    · rfl

/-! ## Places -/

theorem dropBytes?_raise (n : Nat) (cs : List Char) :
    dropBytes? n (raise cs) = (dropBytes? n cs).map raise := by
  induction cs generalizing n with
  | nil => cases n <;> rfl
  | cons c cs ih =>
    cases n with
    | zero => rfl
    | succ n =>
      simp only [raise_cons, dropBytes?, utf8Size_toUpper, ih]
      split <;> rfl

theorem takeBytes?_raise (n : Nat) (cs : List Char) :
    takeBytes? n (raise cs) = (takeBytes? n cs).map raise := by
  induction cs generalizing n with
  | nil => cases n <;> rfl
  | cons c cs ih =>
    cases n with
    | zero => rfl
    | succ n =>
      simp only [raise_cons, takeBytes?, utf8Size_toUpper, ih]
      split
      · rw [Option.map_map, Option.map_map]
        rfl
      · rfl

theorem dropBytes?_eq_some {n : Nat} {cs rest : List Char} (h : dropBytes? n cs = some rest) :
    ∃ before, cs = before ++ rest ∧ width before = n := by
  induction cs generalizing n with
  | nil =>
    cases n with
    | zero => exact ⟨[], by simpa [dropBytes?] using h, rfl⟩
    | succ n => simp [dropBytes?] at h
  | cons c cs ih =>
    cases n with
    | zero => exact ⟨[], by simpa [dropBytes?] using h, rfl⟩
    | succ n =>
      rw [dropBytes?] at h
      split at h
      · next hle =>
        obtain ⟨before, rfl, hwidth⟩ := ih h
        exact ⟨c :: before, rfl, by rw [width, hwidth]; omega⟩
      · cases h

theorem takeBytes?_eq_some {n : Nat} {cs part : List Char} (h : takeBytes? n cs = some part) :
    ∃ after, cs = part ++ after ∧ width part = n := by
  induction cs generalizing n part with
  | nil =>
    cases n with
    | zero =>
      obtain rfl : [] = part := by simpa [takeBytes?] using h
      exact ⟨[], rfl, rfl⟩
    | succ n => simp [takeBytes?] at h
  | cons c cs ih =>
    cases n with
    | zero =>
      obtain rfl : [] = part := by simpa [takeBytes?] using h
      exact ⟨c :: cs, rfl, rfl⟩
    | succ n =>
      rw [takeBytes?] at h
      split at h
      · next hle =>
        obtain ⟨piece, hpiece, rfl⟩ := Option.map_eq_some_iff.1 h
        obtain ⟨after, rfl, hwidth⟩ := ih hpiece
        exact ⟨after, rfl, by rw [width, hwidth]; omega⟩
      · cases h

end GoScaffold.Text

namespace GoScaffold.Span

open Text

theorem slice?_raise (s : Span) (text : List Char) :
    s.slice? (raise text) = (s.slice? text).map raise := by
  unfold slice?
  split
  · rw [dropBytes?_raise]
    cases dropBytes? s.start text with
    | none => rfl
    | some rest => exact takeBytes?_raise s.length rest
  · rfl

theorem raise_slice (s : Span) (text : List Char) : raise (s.slice text) = s.slice (raise text) := by
  rw [slice, slice, slice?_raise]
  cases s.slice? text <;> rfl

theorem slice?_eq_some {s : Span} {text part : List Char} (h : s.slice? text = some part) :
    ∃ before after, text = before ++ (part ++ after) ∧ s = ⟨width before, width before + width part⟩ := by
  unfold slice? at h
  split at h
  · next hle =>
    obtain ⟨rest, hrest, hpart⟩ := Option.bind_eq_some_iff.1 h
    obtain ⟨before, rfl, hbefore⟩ := dropBytes?_eq_some hrest
    obtain ⟨after, rfl, hwidth⟩ := takeBytes?_eq_some hpart
    refine ⟨before, after, rfl, ?_⟩
    obtain ⟨start, stop⟩ := s
    rw [length] at hwidth
    rw [hbefore, hwidth, Span.mk.injEq]
    exact ⟨rfl, by simp only at hle ⊢; omega⟩
  · cases h

/-- What a span names in a text is a part of it, and in a text that is spelled alike it names the
part at the same place. A span that names nothing names the empty part. -/
theorem exists_slice {text text' : List Char} (h : raise text = raise text') (s : Span) :
    ∃ before after before' after',
      text = before ++ (s.slice text ++ after) ∧ text' = before' ++ (s.slice text' ++ after')
        ∧ raise before = raise before' ∧ raise after = raise after' := by
  cases hslice : s.slice? text with
  | none =>
    have hnone : s.slice? text' = none := by
      have hraised := slice?_raise s text
      rwa [h, slice?_raise, hslice, Option.map_none, Option.map_eq_none_iff] at hraised
    exact ⟨[], text, [], text', by simp [slice, hslice], by simp [slice, hnone], rfl, h⟩
  | some part =>
    obtain ⟨before, after, rfl, rfl⟩ := slice?_eq_some hslice
    rw [raise_append, raise_append] at h
    obtain ⟨before', more, rfl, hbefore, hmore⟩ := List.map_eq_append_iff.1 h.symm
    obtain ⟨part', after', rfl, hpart, hafter⟩ := List.map_eq_append_iff.1 hmore
    -- The parts before it are equally wide, and so are the parts themselves.
    have hstart : width before = width before' := by
      rw [← width_raise before, ← width_raise before']
      exact congrArg width hbefore.symm
    have hwidth : width part = width part' := by
      rw [← width_raise part, ← width_raise part']
      exact congrArg width hpart.symm
    refine ⟨before, after, before', after', ?_, ?_, hbefore.symm, hafter.symm⟩
    · rw [slice_part]
    · rw [hstart, hwidth, slice_part]

end GoScaffold.Span

namespace GoScaffold.Sql

open Text

/-! ## Names -/

theorem raise_undouble {q : Char} (hq : q.isAlpha = false) (cs : List Char) :
    raise (undouble q cs) = undouble q (raise cs) := by
  have hself : q.toUpper = q := (toUpper_eq_iff hq).2 rfl
  fun_induction undouble q cs with
  | case1 => rfl
  | case2 c => rfl
  | case3 c d cs h ih =>
    simp only [raise_cons, undouble, h, and_self, if_true, ih, hself]
  | case4 c d cs h ih =>
    simp only [raise_cons] at ih
    simp only [raise_cons, undouble, toUpper_eq_iff hq, if_neg h, ih]

theorem raise_unquoteIdentifier (cs : List Char) :
    raise (unquoteIdentifier cs) = unquoteIdentifier (raise cs) := by
  unfold unquoteIdentifier
  simp only
  rw [← raise_trimBlank, between?_raise rfl rfl]
  cases between? '`' '`' (trimBlank cs) with
  | none => rfl
  | some inner => exact raise_undouble rfl inner

/-! ## Declarations -/

/-- Whether a statement declares a table does not depend on the case of its letters. -/
theorem isTableDeclaration_congr {cs cs' : List Char} (h : raise cs = raise cs') :
    isTableDeclaration cs = isTableDeclaration cs' := by
  unfold isTableDeclaration
  rw [raise_trimBlank, raise_trimBlank, h]

end GoScaffold.Sql
