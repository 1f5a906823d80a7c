import GoScaffold.Proofs.Text.Capitals

set_option autoImplicit false

/-! # Places of a text

A place of a text is told by how many bytes come before it. Not every number of bytes is one: the place
has to stand between characters (`IsPlace`). These are the positions of a string that are valid
(`isPlace_iff`), and raising a text to capitals keeps them. -/

namespace GoScaffold.Text

theorem width_eq_utf8ByteSize (cs : List Char) : width cs = (String.ofList cs).utf8ByteSize := by
  induction cs with
  | nil => rfl
  | cons c cs ih =>
    rw [width, ih, ← List.singleton_append, String.ofList_append, String.utf8ByteSize_append,
      ← String.singleton_eq_ofList, String.utf8ByteSize_singleton]

/-- So many bytes of the text are whole characters. -/
def IsPlace (text : List Char) (offset : Nat) : Prop :=
  ∃ before after, text = before ++ after ∧ offset = width before

variable {text : List Char} {offset : Nat}

theorem isPlace_width (before after : List Char) : IsPlace (before ++ after) (width before) :=
  ⟨before, after, rfl, rfl⟩

theorem IsPlace.le (h : IsPlace text offset) : offset ≤ width text := by
  obtain ⟨before, after, rfl, rfl⟩ := h
  rw [width_append]
  exact Nat.le_add_right ..

/-- The places are the valid positions of the string. -/
theorem isPlace_iff : IsPlace text offset ↔ String.Pos.Raw.IsValid (String.ofList text) ⟨offset⟩ := by
  rw [String.Pos.Raw.isValid_iff_exists_append]
  constructor
  · rintro ⟨before, after, rfl, rfl⟩
    refine ⟨String.ofList before, String.ofList after, String.ofList_append, ?_⟩
    rw [String.Pos.Raw.ext_iff, String.byteIdx_rawEndPos]
    exact width_eq_utf8ByteSize before
  · rintro ⟨before, after, hwhole, hoffset⟩
    refine ⟨before.toList, after.toList, ?_, ?_⟩
    · rw [← String.toList_append, ← hwhole, String.toList_ofList]
    · rw [width_eq_utf8ByteSize, String.ofList_toList]
      exact congrArg String.Pos.Raw.byteIdx hoffset

/-- The capitals of a text have no place that the text does not have. -/
theorem IsPlace.of_raise (h : IsPlace (raise text) offset) : IsPlace text offset := by
  obtain ⟨before, after, htext, rfl⟩ := h
  obtain ⟨front, rest, rfl, rfl, -⟩ := List.map_eq_append_iff.1 htext
  exact ⟨front, rest, rfl, width_raise front⟩

end GoScaffold.Text
