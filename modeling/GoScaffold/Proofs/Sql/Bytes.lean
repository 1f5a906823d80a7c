import GoScaffold.Proofs.Go.Interpreted
import GoScaffold.Proofs.Sql.Partition
import GoScaffold.Proofs.Text.Places

set_option autoImplicit false

/-! # Statements by bytes

A scan may go over the bytes of a text instead of its characters. All characters that it looks for take
one byte, and no byte of a longer character is one of theirs. After a backslash in a string it takes one
byte, though, and not one character: it may then stand inside a character, or past the end of the text.

It cuts where the scan of the characters does all the same (`statements_by_bytes`). For inside a string
the bytes that are left of a character are passed over one by one, so that the two scans meet again at
the next character (`byteSpans_append`). Hence every span that the scan of the bytes finds begins and
ends between characters, and every statement can be sliced. -/

namespace GoScaffold

namespace Text

/-! ## Bytes of characters -/

/-- The byte of a character of ASCII. -/
def octet (c : Char) : UInt8 := c.toNat.toUInt8

theorem octet_inj {c d : Char} (hc : c.toNat < 0x80) (hd : d.toNat < 0x80) :
    octet c = octet d ↔ c = d := by
  refine ⟨fun h => ?_, fun h => h ▸ rfl⟩
  have hcodes := congrArg UInt8.toNat h
  simp only [octet, Nat.toUInt8_eq, UInt8.toNat_ofNat'] at hcodes
  exact Char.toNat_inj.1 (by omega)

/-- A character beyond ASCII has no byte of an ASCII character. -/
theorem le_of_mem_utf8EncodeChar {c : Char} (hc : 0x80 ≤ c.toNat) {b : UInt8}
    (hb : b ∈ String.utf8EncodeChar c) : 0x80 ≤ b := by
  have hcode : ¬c.val.toNat ≤ 127 := Nat.not_le.2 hc
  have hbyte {n : Nat} (hlow : 128 ≤ n) (hhigh : n < 256) : (0x80 : UInt8) ≤ UInt8.ofNat n := by
    rw [UInt8.le_iff_toNat_le, UInt8.toNat_ofNat_of_lt' hhigh]
    exact hlow
  unfold String.utf8EncodeChar at hb
  simp only [hcode, if_false] at hb
  split_ifs at hb <;>
    · simp only [List.mem_cons, List.not_mem_nil, or_false] at hb
      rcases hb with rfl | rfl | rfl | rfl <;> exact hbyte (by omega) (by omega)

theorem length_utf8 (cs : List Char) : (Go.utf8 cs).length = width cs := by
  induction cs with
  | nil => rfl
  | cons c cs ih => rw [Go.utf8_cons, List.length_append, String.length_utf8EncodeChar, ih, width]

end Text

namespace Sql

open Text

open Go (utf8 utf8_cons utf8_append utf8EncodeChar_ascii)

/-! ## The scan of the bytes -/

/-- The quote that a byte opens. -/
def Quote.ofByte? (b : UInt8) : Option Quote :=
  if b = octet '`' then some .backtick
  else if b = octet '\'' then some .single
  else if b = octet '"' then some .double
  else none

/-- What a scan of bytes is inside of. A byte after a backslash is taken together with it. -/
inductive Inside
  | nothing
  | lineComment
  | quote (q : Quote)
  deriving DecidableEq, Repr

/-- What a byte does. -/
inductive ByteStep
  /-- It ends a statement. -/
  | cut
  /-- The scan goes on after it and `more` further bytes. -/
  | pass (inside : Inside) (more : Nat)

/-- What a byte does where the scan is inside of something. -/
def Inside.step : Inside → UInt8 → ByteStep
  | .nothing, b =>
    if b = octet '#' then .pass .lineComment 0
    else if b = octet ';' then .cut
    else
      match Quote.ofByte? b with
      | some q => .pass (.quote q) 0
      | none => .pass .nothing 0
  | .lineComment, b => .pass (if b = octet '\n' then .nothing else .lineComment) 0
  | .quote q, b =>
    if b = octet '\\' ∧ q.isString then .pass (.quote q) 1
    else if Quote.ofByte? b = some q then .pass .nothing 0
    else .pass (.quote q) 0

/-- The spans that the scan cuts from the byte at `i` on, the last of them up to the end of the text.
The first begins at `start`. -/
def byteSpans (bytes : List UInt8) (inside : Inside) (start i : Nat) : List Span :=
  if h : i < bytes.length then
    match inside.step bytes[i] with
    | .cut => ⟨start, i + 1⟩ :: byteSpans bytes .nothing (i + 1) (i + 1)
    | .pass next more => byteSpans bytes next start (i + more + 1)
  else if start < bytes.length then [⟨start, bytes.length⟩]
  else []
termination_by bytes.length - i

/-- The statements of a schema text by a scan of its bytes; nothing if one of the spans does not begin
and end between characters of the text. -/
def byteStatements? (text : List Char) : Option (List (List Char)) :=
  ((byteSpans (utf8 (stripComments text)) .nothing 0 0).mapM fun span : Span =>
    span.slice? (stripComments text)).map (·.filter holdsText)

/-! ## One step -/

namespace Open

/-- What the scan of the bytes is inside of. -/
def inside : Open → Inside
  | .nothing => .nothing
  | .lineComment => .lineComment
  | .quote q | .escape q => .quote q

/-- How many bytes of the next character the scan of the bytes has taken already. -/
def ahead : Open → Nat
  | .escape _ => 1
  | _ => 0

end Open

theorem ofByte?_octet {c : Char} (hc : c.toNat < 0x80) : Quote.ofByte? (octet c) = Quote.ofChar? c := by
  simp only [Quote.ofByte?, Quote.ofChar?, octet_inj hc (d := '`') (by decide),
    octet_inj hc (d := '\'') (by decide), octet_inj hc (d := '"') (by decide)]

theorem ofChar?_eq_some_iff {c : Char} {q : Quote} : Quote.ofChar? c = some q ↔ c = q.char := by
  unfold Quote.ofChar?
  cases q <;> split_ifs <;> simp_all [Quote.char]

/-- The byte of an ASCII character does what the character does. -/
theorem step_octet {o : Open} (ho : o.ahead = 0) {c : Char} (hc : c.toNat < 0x80) :
    o.inside.step (octet c)
      = if o = .nothing ∧ c = ';' then .cut else .pass (o.next c).inside (o.next c).ahead := by
  have hsame {d : Char} (hd : d.toNat < 0x80) : octet c = octet d ↔ c = d := octet_inj hc hd
  cases o with
  | nothing =>
    simp only [Open.inside, Inside.step, Open.next, hsame (d := '#') (by decide),
      hsame (d := ';') (by decide), ofByte?_octet hc, true_and]
    by_cases hhash : c = '#'
    · rw [if_pos hhash, if_neg (by rintro rfl; cases hhash), if_pos hhash]
      rfl
    · rw [if_neg hhash, if_neg hhash]
      cases Quote.ofChar? c <;> rfl
  | lineComment =>
    simp only [Open.inside, Inside.step, Open.next, hsame (d := '\n') (by decide), reduceCtorEq,
      false_and, if_false]
    split <;> rfl
  | quote q =>
    simp only [Open.inside, Inside.step, Open.next, hsame (d := '\\') (by decide), ofByte?_octet hc,
      ofChar?_eq_some_iff, reduceCtorEq, false_and, if_false]
    split_ifs <;> rfl
  | escape q => cases ho

/-- A byte beyond ASCII is passed over. -/
theorem step_of_le (inside : Inside) {b : UInt8} (hb : 0x80 ≤ b) : inside.step b = .pass inside 0 := by
  have hne {d : Char} (hd : octet d < 0x80) : b ≠ octet d := by
    rintro rfl
    exact absurd hb (UInt8.not_le.2 hd)
  have hquote : Quote.ofByte? b = none := by
    rw [Quote.ofByte?, if_neg (hne (by decide)), if_neg (hne (by decide)), if_neg (hne (by decide))]
  cases inside with
  | nothing => rw [Inside.step, if_neg (hne (by decide)), if_neg (hne (by decide)), hquote]
  | lineComment => rw [Inside.step, if_neg (hne (by decide))]
  | quote q => rw [Inside.step, if_neg fun h => hne (by decide) h.1, hquote, if_neg nofun]

/-- The other characters leave open what is open. -/
theorem next_of_le {o : Open} (ho : o.ahead = 0) {c : Char} (hc : 0x80 ≤ c.toNat) : o.next c = o := by
  have hne {d : Char} (hd : d.toNat < 0x80) : c ≠ d := by
    rintro rfl
    omega
  cases o with
  | nothing =>
    simp only [Open.next, Quote.ofChar?, if_neg (hne (d := '#') (by decide)),
      if_neg (hne (d := '`') (by decide)), if_neg (hne (d := '\'') (by decide)),
      if_neg (hne (d := '"') (by decide))]
  | lineComment => rw [Open.next, if_neg (hne (by decide))]
  | quote q =>
    have hchar : c ≠ q.char := hne (by cases q <;> decide)
    rw [Open.next, if_neg fun h => hne (by decide) h.1, if_neg hchar]
  | escape q => cases ho

/-! ## The scan of the characters -/

theorem segmentsFrom_ne_nil (o : Open) (cs : List Char) : segmentsFrom o cs ≠ [] := by
  induction cs generalizing o with
  | nil => exact List.cons_ne_nil [] []
  | cons c cs ih =>
    rw [segmentsFrom]
    split
    · exact List.cons_ne_nil _ _
    · split <;> exact List.cons_ne_nil _ _

/-- A character that is no end stands in the segment of what follows. -/
theorem segmentsFrom_cons {o : Open} {c : Char} (h : ¬(o = .nothing ∧ c = ';')) (cs : List Char) :
    segmentsFrom o (c :: cs) = (segmentsFrom (o.next c) cs).modifyHead (c :: ·) := by
  obtain ⟨segment, rest, hsegments⟩ := List.exists_cons_of_ne_nil (segmentsFrom_ne_nil (o.next c) cs)
  rw [segmentsFrom, if_neg h, hsegments]
  rfl

theorem modifyHead_nil_append (segments : List (List Char)) :
    segments.modifyHead (([] : List Char) ++ ·) = segments := by
  cases segments <;> rfl

/-! ## Both scans -/

/-- The spans of texts that lie side by side from an offset on. -/
def spansFrom (offset : Nat) : List (List Char) → List Span
  | [] => []
  | part :: rest => ⟨offset, offset + width part⟩ :: spansFrom (offset + width part) rest

/-- Bytes beyond ASCII are passed over one by one. -/
theorem byteSpans_of_le (inside : Inside) (start : Nat) (front run rest : List UInt8)
    (h : ∀ b ∈ run, 0x80 ≤ b) :
    byteSpans (front ++ (run ++ rest)) inside start front.length
      = byteSpans (front ++ (run ++ rest)) inside start (front.length + run.length) := by
  induction run generalizing front with
  | nil => rfl
  | cons b run ih =>
    obtain ⟨hb, hrun⟩ := List.forall_mem_cons.1 h
    have hstep := ih (front ++ [b]) hrun
    simp only [List.append_assoc, List.singleton_append, List.length_append,
      List.length_singleton] at hstep
    have hlt : front.length < (front ++ (b :: run ++ rest)).length := by simp
    have hbyte : (front ++ (b :: run ++ rest))[front.length] = b := by simp
    rw [byteSpans, dif_pos hlt, hbyte, step_of_le inside hb]
    simp only [Nat.add_zero, List.cons_append, List.length_cons]
    rw [hstep, Nat.add_assoc, Nat.add_comm 1]

/-- The step at the byte of an ASCII character. -/
theorem byteSpans_octet (inside : Inside) (start : Nat) {front rest : List Char} {c : Char}
    (hc : c.toNat < 0x80) :
    byteSpans (utf8 (front ++ c :: rest)) inside start (width front)
      = match inside.step (octet c) with
        | .cut => ⟨start, width front + 1⟩
            :: byteSpans (utf8 (front ++ c :: rest)) .nothing (width front + 1) (width front + 1)
        | .pass next more =>
          byteSpans (utf8 (front ++ c :: rest)) next start (width front + more + 1) := by
  have hbytes : utf8 (front ++ c :: rest) = utf8 front ++ octet c :: utf8 rest := by
    rw [utf8_append, utf8_cons, utf8EncodeChar_ascii hc]
    rfl
  have hlt : width front < (utf8 (front ++ c :: rest)).length := by
    rw [hbytes, ← length_utf8]
    simp
  have hbyte : (utf8 (front ++ c :: rest))[width front] = octet c := by
    simp only [hbytes, ← length_utf8]
    simp
  rw [byteSpans, dif_pos hlt, hbyte]

/-- From wherever the scan of the bytes stands in a character beyond ASCII, it comes to its end. -/
theorem byteSpans_of_beyond (inside : Inside) (start : Nat) {front rest : List Char} {c : Char}
    (hc : 0x80 ≤ c.toNat) {taken : Nat} (htaken : taken ≤ 1) :
    byteSpans (utf8 (front ++ c :: rest)) inside start (width front + taken)
      = byteSpans (utf8 (front ++ c :: rest)) inside start (width front + c.utf8Size) := by
  have hsize := Char.utf8Size_pos c
  have hlength := String.length_utf8EncodeChar c
  have hpassed := byteSpans_of_le inside start (utf8 front ++ (String.utf8EncodeChar c).take taken)
    ((String.utf8EncodeChar c).drop taken) (utf8 rest)
    fun b hb => le_of_mem_utf8EncodeChar hc (List.mem_of_mem_drop hb)
  have hbytes : utf8 front ++ (String.utf8EncodeChar c).take taken
      ++ ((String.utf8EncodeChar c).drop taken ++ utf8 rest) = utf8 (front ++ c :: rest) := by
    rw [List.append_assoc, ← List.append_assoc (List.take ..), List.take_append_drop, utf8_append,
      utf8_cons]
  have hstart : (utf8 front ++ (String.utf8EncodeChar c).take taken).length = width front + taken := by
    rw [List.length_append, length_utf8, List.length_take, hlength]
    omega
  have hstop : width front + taken + ((String.utf8EncodeChar c).drop taken).length
      = width front + c.utf8Size := by
    rw [List.length_drop, hlength]
    omega
  rwa [hbytes, hstart, hstop] at hpassed

/-- Past a character that ends no statement, the scan of the bytes stands at the end of the character,
but for the one byte that it is ahead after a backslash. -/
theorem byteSpans_next (o : Open) (start : Nat) {front rest : List Char} {c : Char}
    (hcut : ¬(o = .nothing ∧ c = ';')) :
    byteSpans (utf8 (front ++ c :: rest)) o.inside start (width front + o.ahead)
      = byteSpans (utf8 (front ++ c :: rest)) (o.next c).inside start
          (width front + c.utf8Size + (o.next c).ahead) := by
  have hahead : o.ahead = 0 ∨ ∃ q, o = .escape q := by cases o <;> simp [Open.ahead]
  by_cases hc : c.toNat < 0x80
  · have hsize : c.utf8Size = 1 := by
      rw [← String.length_utf8EncodeChar, utf8EncodeChar_ascii hc]
      rfl
    rcases hahead with hahead | ⟨q, rfl⟩
    · rw [hahead, Nat.add_zero, byteSpans_octet _ _ hc, step_octet hahead hc, if_neg hcut, hsize,
        Nat.add_right_comm]
    · -- The byte of the character was taken with the backslash.
      rw [hsize]
      rfl
  · have hc : 0x80 ≤ c.toNat := Nat.not_lt.1 hc
    rcases hahead with hahead | ⟨q, rfl⟩
    · rw [next_of_le hahead hc, hahead]
      exact byteSpans_of_beyond o.inside start hc (Nat.zero_le 1)
    · exact byteSpans_of_beyond (.quote q) start hc (Nat.le_refl 1)

/-- A `;` outside quotes and comments ends the statement. -/
theorem byteSpans_cut (start : Nat) (front rest : List Char) :
    byteSpans (utf8 (front ++ ';' :: rest)) .nothing start (width front)
      = ⟨start, width front + 1⟩
          :: byteSpans (utf8 (front ++ ';' :: rest)) .nothing (width front + 1) (width front + 1) := by
  have hstep : Inside.nothing.step (octet ';') = .cut := rfl
  rw [byteSpans_octet _ _ (by decide), hstep]

/-- After any front of a text the scan of the bytes cuts the rest as the scan of the characters does.
`part` is what the statement holds so far that the next character belongs to. -/
theorem byteSpans_append (o : Open) (front part cs : List Char) :
    byteSpans (utf8 (front ++ part ++ cs)) o.inside (width front) (width (front ++ part) + o.ahead)
      = spansFrom (width front)
          (((segmentsFrom o cs).modifyHead (part ++ ·)).filter fun segment => !segment.isEmpty) := by
  induction cs generalizing o front part with
  | nil =>
    have hend : ¬width (front ++ part) + o.ahead < (utf8 (front ++ part)).length := by
      rw [length_utf8]
      omega
    rw [List.append_nil, byteSpans, dif_neg hend, length_utf8, width_append]
    cases part with
    | nil => simp [segmentsFrom, spansFrom, width]
    | cons c part =>
      have hpos := Char.utf8Size_pos c
      rw [if_pos (by rw [width]; omega)]
      simp [segmentsFrom, spansFrom]
  | cons c cs ih =>
    have hwhole : front ++ part ++ c :: cs = front ++ (part ++ [c]) ++ cs := by simp
    have hwidth : width (front ++ (part ++ [c])) = width (front ++ part) + c.utf8Size := by
      simp [width, Nat.add_assoc]
    by_cases hcut : o = .nothing ∧ c = ';'
    · obtain ⟨rfl, rfl⟩ := hcut
      have hrest := ih .nothing (front ++ (part ++ [';'])) []
      rw [List.append_nil, modifyHead_nil_append, ← hwhole, hwidth] at hrest
      have hspan : width front + width (part ++ [';']) = width (front ++ part) + 1 := by
        rw [← width_append, hwidth]
        rfl
      rw [segmentsFrom, if_pos ⟨rfl, rfl⟩, List.modifyHead_cons, List.filter_cons_of_pos (by simp),
        spansFrom, hspan]
      exact (byteSpans_cut _ _ _).trans (congrArg (List.cons _) hrest)
    · have hrest := ih (o.next c) front (part ++ [c])
      rw [← hwhole, hwidth] at hrest
      rw [byteSpans_next o _ hcut, hrest, segmentsFrom_cons hcut, List.modifyHead_modifyHead]
      simp [Function.comp_def]

/-! ## Statements -/

variable {front : List Char} {parts : List (List Char)}

/-- The spans of texts that lie side by side are read back as the texts. -/
theorem mapM_slice?_spansFrom (front : List Char) (parts : List (List Char)) :
    (spansFrom (width front) parts).mapM (fun span : Span => span.slice? (front ++ parts.flatten))
      = some parts := by
  induction parts generalizing front with
  | nil => rfl
  | cons part parts ih =>
    have hmore := ih (front ++ part)
    rw [width_append, List.append_assoc, ← List.flatten_cons] at hmore
    rw [spansFrom, List.mapM_cons, hmore, List.flatten_cons, Span.slice?_part]
    rfl

theorem exists_of_mem_spansFrom {span : Span} (h : span ∈ spansFrom (width front) parts) :
    ∃ before part after, part ∈ parts ∧ front ++ parts.flatten = before ++ (part ++ after)
      ∧ span = ⟨width before, width before + width part⟩ := by
  induction parts generalizing front with
  | nil => cases h
  | cons part parts ih =>
    rcases List.mem_cons.1 h with rfl | h
    · exact ⟨front, part, parts.flatten, List.mem_cons_self, rfl, rfl⟩
    · rw [← width_append] at h
      obtain ⟨before, found, after, hfound, hwhole, hspan⟩ := ih h
      exact ⟨before, found, after, List.mem_cons_of_mem _ hfound, by rw [← hwhole]; simp, hspan⟩

/-- The segments of a text that are not empty. -/
def filledSegments (text : List Char) : List (List Char) :=
  (segmentsFrom .nothing text).filter fun segment => !segment.isEmpty

theorem byteSpans_utf8 (text : List Char) :
    byteSpans (utf8 text) .nothing 0 0 = spansFrom 0 (filledSegments text) := by
  have hspans := byteSpans_append .nothing [] [] text
  rw [modifyHead_nil_append] at hspans
  exact hspans

theorem flatten_filledSegments (text : List Char) : (filledSegments text).flatten = text := by
  rw [filledSegments, List.flatten_filter_not_isEmpty, (segmentsFrom_partition text).1.whole]

theorem filter_holdsText_filledSegments (text : List Char) :
    (filledSegments text).filter holdsText = (segmentsFrom .nothing text).filter holdsText := by
  rw [filledSegments, List.filter_filter]
  refine List.filter_congr fun segment _ => ?_
  cases segment with
  | nil => decide
  | cons c cs => simp

/-- Whatever the text, the scan of its bytes finds the spans of the segments that the scan of its
characters cuts. Each span holds a byte, lies in the text and begins and ends between characters. The
statements of a schema text can all be sliced and are those that the scan of the characters tells. -/
theorem statements_by_bytes (text : List Char) :
    byteSpans (utf8 text) .nothing 0 0 = spansFrom 0 (filledSegments text)
      ∧ (∀ span ∈ byteSpans (utf8 text) .nothing 0 0,
        span.start < span.stop ∧ span.stop ≤ (utf8 text).length
          ∧ String.Pos.Raw.IsValid (String.ofList text) ⟨span.start⟩
          ∧ String.Pos.Raw.IsValid (String.ofList text) ⟨span.stop⟩)
      ∧ byteStatements? text = some (statements text) := by
  refine ⟨byteSpans_utf8 text, fun span hspan => ?_, ?_⟩
  · rw [byteSpans_utf8] at hspan
    have hspan : span ∈ spansFrom (width []) (filledSegments text) := hspan
    obtain ⟨before, part, after, hpart, hwhole, rfl⟩ := exists_of_mem_spansFrom hspan
    rw [List.nil_append, flatten_filledSegments] at hwhole
    have hfilled : part ≠ [] := by simpa using (List.mem_filter.1 hpart).2
    obtain ⟨c, cs, rfl⟩ := List.exists_cons_of_ne_nil hfilled
    have hpos := Char.utf8Size_pos c
    rw [length_utf8, hwhole]
    refine ⟨?_, ?_, isPlace_iff.1 (isPlace_width before _), ?_⟩
    · simp only [width]
      omega
    · simp only [width_append]
      omega
    · simp only
      rw [← width_append, ← List.append_assoc]
      exact isPlace_iff.1 (isPlace_width (before ++ c :: cs) after)
  · have hslices := mapM_slice?_spansFrom [] (filledSegments (stripComments text))
    rw [flatten_filledSegments, List.nil_append, width] at hslices
    rw [byteStatements?, byteSpans_utf8, hslices, Option.map_some, filter_holdsText_filledSegments,
      statements]

/-- A backslash before a character of three bytes, one in an identifier, and one at the end of the
text. -/
example : byteStatements? "a '\\€;' `\\`;\"b;\\".toList
    = some ["a '\\€;' `\\`;".toList, "\"b;\\".toList] := by decide +kernel

end Sql

end GoScaffold
