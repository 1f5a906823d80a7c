import GoScaffold.Text.Ascii

set_option autoImplicit false

/-! # Spans of a text

A span names a part of a text by its first byte and the byte after its last, both counted in
UTF-8. Only spans that begin and end between characters name a part; raising the text to ASCII
capitals keeps every width, so a span found in the raised text names the same part of both. -/

namespace GoScaffold.Text

/-- How many bytes a text takes. -/
def width : List Char → Nat
  | [] => 0
  | c :: cs => c.utf8Size + width cs

@[simp] theorem width_append (as bs : List Char) : width (as ++ bs) = width as + width bs := by
  induction as with
  | nil => simp [width]
  | cons a as ih => simp [width, ih, Nat.add_assoc]

/-- The text after its first `n` bytes, if these are whole characters. -/
def dropBytes? : Nat → List Char → Option (List Char)
  | 0, cs => some cs
  | _ + 1, [] => none
  | n + 1, c :: cs => if c.utf8Size ≤ n + 1 then dropBytes? (n + 1 - c.utf8Size) cs else none

/-- The first `n` bytes of the text, if these are whole characters. -/
def takeBytes? : Nat → List Char → Option (List Char)
  | 0, _ => some []
  | _ + 1, [] => none
  | n + 1, c :: cs =>
    if c.utf8Size ≤ n + 1 then (takeBytes? (n + 1 - c.utf8Size) cs).map (c :: ·) else none

/-- The bytes of a text that is not empty begin with those of its first character. -/
theorem exists_width_cons (a : Char) (as : List Char) :
    ∃ n, width (a :: as) = n + 1 ∧ a.utf8Size ≤ n + 1 ∧ n + 1 - a.utf8Size = width as := by
  have hpos := a.utf8Size_pos
  refine ⟨width (a :: as) - 1, ?_⟩
  simp only [width]
  omega

theorem dropBytes?_width (as bs : List Char) : dropBytes? (width as) (as ++ bs) = some bs := by
  induction as with
  | nil => simp [width, dropBytes?]
  | cons a as ih =>
    obtain ⟨n, hn, hle, hsub⟩ := exists_width_cons a as
    simp [hn, dropBytes?, hle, hsub, ih]

theorem takeBytes?_width (as bs : List Char) : takeBytes? (width as) (as ++ bs) = some as := by
  induction as with
  | nil => simp [width, takeBytes?]
  | cons a as ih =>
    obtain ⟨n, hn, hle, hsub⟩ := exists_width_cons a as
    simp [hn, takeBytes?, hle, hsub, ih]

end GoScaffold.Text

namespace GoScaffold

/-- The bytes from `start` up to `stop`. -/
structure Span where
  start : Nat
  stop : Nat
  deriving DecidableEq, Repr

namespace Span

open Text

/-- How many bytes the span has; a reversed span has none. -/
def length (s : Span) : Nat := s.stop - s.start

/-- Whether the span has no byte. -/
def isEmpty (s : Span) : Bool := decide (s.stop ≤ s.start)

/-- The part of the text that the span names, if it names one. -/
def slice? (s : Span) (text : List Char) : Option (List Char) :=
  if s.start ≤ s.stop then (dropBytes? s.start text).bind (takeBytes? s.length) else none

/-- The part of the text that the span names, or nothing. -/
def slice (s : Span) (text : List Char) : List Char := (s.slice? text).getD []

/-- The span of a part is read back as that part. -/
theorem slice?_part (before part after : List Char) :
    (Span.mk (width before) (width before + width part)).slice? (before ++ (part ++ after))
      = some part := by
  simp [slice?, dropBytes?_width, length, takeBytes?_width]

theorem slice_part (before part after : List Char) :
    (Span.mk (width before) (width before + width part)).slice (before ++ (part ++ after)) = part := by
  rw [slice, slice?_part]
  rfl

end Span

end GoScaffold
