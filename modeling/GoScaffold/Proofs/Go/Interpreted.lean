import Mathlib.Algebra.Group.Nat.Defs
import Mathlib.Tactic.SplitIfs
import GoScaffold.Go.Literal

set_option autoImplicit false

/-! # What string literals stand for

The value of an interpreted string literal is a sequence of bytes. A character stands for its UTF-8, an
escape for a byte, for a character, or for the UTF-8 of a code point; quotes and line feeds stand in no
literal without an escape. A text that is quoted is read back from its literal
(`interpreted?_quoteChars`), and so is one that needs no escapes (`literalTail_plain`); any other body
of a literal stands for fewer bytes than it is written with (`exists_body_of_literalTail`). -/

namespace GoScaffold.Go

/-! ## Reading literals -/

/-- The UTF-8 of a text. -/
def utf8 (cs : List Char) : List UInt8 := cs.flatMap String.utf8EncodeChar

/-- The value of a digit of a base up to sixteen. -/
def digit? (base : Nat) (c : Char) : Option Nat :=
  let n :=
    if c.isDigit then c.toNat - 48
    else if decide ('a' ≤ c) && decide (c ≤ 'f') then c.toNat - 87
    else if decide ('A' ≤ c) && decide (c ≤ 'F') then c.toNat - 55
    else base
  if n < base then some n else none

/-- The number that digits spell after those of `n`. -/
def number? (base : Nat) : Nat → List Char → Option Nat
  | n, [] => some n
  | n, c :: cs => (digit? base c).bind fun d => number? base (n * base + d) cs

/-- The number that the first digits of a text spell. -/
def digits? (base places : Nat) (cs : List Char) : Option Nat :=
  if cs.length < places then none else number? base 0 (cs.take places)

/-- A number as a byte. -/
def byte? (n : Nat) : Option (List UInt8) := if n < 256 then some [n.toUInt8] else none

/-- The UTF-8 of a code point; surrogates have none. -/
def codePoint? (n : Nat) : Option (List UInt8) :=
  if n.isValidChar then some (String.utf8EncodeChar (Char.ofNat n)) else none

/-- The characters that stand for a byte after a backslash. -/
def shortEscapes : List (Char × UInt8) :=
  [('a', 7), ('b', 8), ('f', 12), ('n', 10), ('r', 13), ('t', 9), ('v', 11), ('\\', 92), ('"', 34)]

/-- What an escape stands for, and how many characters it has after the backslash. -/
def escape? : List Char → Option (List UInt8 × Nat)
  | [] => none
  | c :: cs =>
    match shortEscapes.lookup c with
    | some b => some ([b], 1)
    | none =>
      if c = 'x' then ((digits? 16 2 cs).bind byte?).map (·, 3)
      else if c = 'u' then ((digits? 16 4 cs).bind codePoint?).map (·, 5)
      else if c = 'U' then ((digits? 16 8 cs).bind codePoint?).map (·, 9)
      else ((digits? 8 3 (c :: cs)).bind byte?).map (·, 3)

/-- The value of a literal and what follows it, after its opening quote; `pending` characters of an
escape are still to be passed over. -/
def literalTail : Nat → List Char → Option (List UInt8 × List Char)
  | _, [] => none
  | pending + 1, _ :: cs => literalTail pending cs
  | 0, c :: cs =>
    if c = '"' then some ([], cs)
    else if c = '\n' then none
    else if c = '\\' then
      match escape? cs with
      | none => none
      | some (bytes, used) => (literalTail used cs).map fun (value, rest) => (bytes ++ value, rest)
    else (literalTail 0 cs).map fun (value, rest) => (String.utf8EncodeChar c ++ value, rest)

/-- The value of the literal that a text begins with, and what follows it. -/
def interpreted? : List Char → Option (List UInt8 × List Char)
  | [] => none
  | c :: cs => if c = '"' then literalTail 0 cs else none

/-- The value of a text that is one literal. -/
def literalValue? (cs : List Char) : Option (List UInt8) :=
  match interpreted? cs with
  | some (value, []) => some value
  | _ => none

/-! ## Reading what was quoted -/

@[simp] theorem utf8_nil : utf8 [] = [] := rfl

@[simp] theorem utf8_cons (c : Char) (cs : List Char) :
    utf8 (c :: cs) = String.utf8EncodeChar c ++ utf8 cs := rfl

@[simp] theorem utf8_append (as bs : List Char) : utf8 (as ++ bs) = utf8 as ++ utf8 bs :=
  List.flatMap_append

theorem utf8_toList (s : String) : utf8 s.toList = s.toUTF8.data.toList := by
  have hencode : s.toList.utf8Encode = s.toUTF8 := String.utf8Encode_toList
  rw [← hencode, List.utf8Encode, List.data_toByteArray]
  rfl

/-- Strings are told apart by their UTF-8. -/
theorem utf8_toList_inj {s t : String} : utf8 s.toList = utf8 t.toList ↔ s = t := by
  rw [utf8_toList, utf8_toList, Array.toList_inj, ByteArray.ext_iff.symm]
  exact String.toByteArray_inj

theorem number?_append (base n : Nat) (as bs : List Char) :
    number? base n (as ++ bs) = (number? base n as).bind fun m => number? base m bs := by
  induction as generalizing n with
  | nil => rfl
  | cons c as ih =>
    rw [List.cons_append, number?, number?]
    cases digit? base c with
    | none => rfl
    | some d => exact ih _

theorem digit?_hexDigit {n : Nat} (h : n < 16) : digit? 16 (hexDigit n) = some n := by
  have hall : ∀ n < 16, digit? 16 (hexDigit n) = some n := by decide
  exact hall n h

@[simp] theorem length_hex (places n : Nat) : (hex places n).length = places := by
  induction places generalizing n with
  | zero => rfl
  | succ places ih => rw [hex, List.length_append, ih, List.length_singleton]

/-- Hexadecimal digits spell the number that they were made from. -/
theorem number?_hex {places n : Nat} (h : n < 16 ^ places) : number? 16 0 (hex places n) = some n := by
  induction places generalizing n with
  | zero =>
    have hzero : n = 0 := by simpa using h
    rw [hzero]
    rfl
  | succ places ih =>
    have hfront : n / 16 < 16 ^ places := by
      rw [Nat.div_lt_iff_lt_mul (by decide), ← Nat.pow_succ]
      exact h
    rw [hex, number?_append, ih hfront, Option.bind_some, number?,
      digit?_hexDigit (Nat.mod_lt n (by decide)), Option.bind_some, number?, Nat.div_add_mod']

theorem digits?_hex {places n : Nat} (h : n < 16 ^ places) (rest : List Char) :
    digits? 16 places (hex places n ++ rest) = some n := by
  have hlength : ¬(hex places n ++ rest).length < places := by
    rw [List.length_append, length_hex]
    omega
  have htake : (hex places n ++ rest).take places = hex places n := by
    rw [List.take_append_of_le_length (Nat.le_of_eq (length_hex places n).symm)]
    exact List.take_of_length_le (Nat.le_of_eq (length_hex places n))
  rw [digits?, if_neg hlength, htake, number?_hex h]

theorem utf8EncodeChar_ascii {c : Char} (h : c.toNat < 0x80) :
    String.utf8EncodeChar c = [c.toNat.toUInt8] := by
  have hsize : c.utf8Size = 1 := by
    rw [Char.utf8Size_eq_one_iff, UInt32.le_iff_toNat_le]
    exact Nat.le_of_lt_succ h
  exact String.utf8EncodeChar_eq_singleton hsize

theorem codePoint?_toNat (c : Char) : codePoint? c.toNat = some (String.utf8EncodeChar c) := by
  have hvalid : c.toNat.isValidChar := c.valid
  rw [codePoint?, if_pos hvalid, Char.ofNat_toNat]

/-- Characters that are pending are passed over. -/
theorem literalTail_pending (passed rest : List Char) :
    literalTail passed.length (passed ++ rest) = literalTail 0 rest := by
  induction passed with
  | nil => rfl
  | cons c passed ih => exact ih

/-- An escape stands for its bytes. -/
theorem literalTail_escaped {bytes : List UInt8} (passed : List Char) {rest : List Char}
    (h : escape? (passed ++ rest) = some (bytes, passed.length)) :
    literalTail 0 ('\\' :: (passed ++ rest))
      = (literalTail 0 rest).map fun (value, rest) => (bytes ++ value, rest) := by
  have hpending := literalTail_pending passed rest
  simp [literalTail, h, hpending]

theorem toNat_of_isInvisible {c : Char} (h : isControl c = true ∨ isInvisible c = true) :
    c.toNat < 16 ^ 4 := by
  simp only [isControl, isInvisible, Bool.or_eq_true, Bool.and_eq_true, decide_eq_true_eq,
    beq_iff_eq] at h
  omega

/-- A letter and a full number of hexadecimal digits, for a number below `limit`. -/
def IsCoded (letter : Char) (places limit : Nat) (cs : List Char) : Prop :=
  ∃ digits n, cs = letter :: digits ∧ digits.length = places ∧ number? 16 0 digits = some n ∧ n < limit

/-- The escapes that quoting uses, without their backslash. -/
def IsWrittenEscape (cs : List Char) : Prop :=
  cs ∈ [['\\'], ['"'], ['n'], ['r'], ['t']] ∨ IsCoded 'x' 2 0x80 cs ∨ IsCoded 'u' 4 0x10000 cs

theorem isCoded_hex {letter : Char} {places limit n : Nat} (h : n < 16 ^ places) (hn : n < limit) :
    IsCoded letter places limit (letter :: hex places n) :=
  ⟨hex places n, n, rfl, length_hex places n, number?_hex h, hn⟩

theorem escape?_byte {c : Char} (h : c.toNat < 0x80) (rest : List Char) :
    escape? ('x' :: hex 2 c.toNat ++ rest) = some (String.utf8EncodeChar c, 3) := by
  have hlookup : shortEscapes.lookup 'x' = none := by decide
  have hcode : c.toNat < 16 ^ 2 := by omega
  have hbyte : c.toNat < 256 := by omega
  simp [escape?, hlookup, digits?_hex hcode, byte?, utf8EncodeChar_ascii h, hbyte]

theorem escape?_codePoint {c : Char} (h : c.toNat < 16 ^ 4) (rest : List Char) :
    escape? ('u' :: hex 4 c.toNat ++ rest) = some (String.utf8EncodeChar c, 5) := by
  have hlookup : shortEscapes.lookup 'u' = none := by decide
  simp [escape?, hlookup, digits?_hex h, codePoint?_toNat]

/-- A character stands in a literal as it is, if it is none that has to be escaped, or else as an
escape that stands for its UTF-8 whatever follows. -/
theorem escape_cases (c : Char) :
    (escape c = [c] ∧ c ≠ '"' ∧ c ≠ '\\' ∧ isControl c = false ∧ isInvisible c = false)
      ∨ ∃ passed, escape c = '\\' :: passed ∧ IsWrittenEscape passed
        ∧ ∀ rest, escape? (passed ++ rest) = some (String.utf8EncodeChar c, passed.length) := by
  unfold escape
  split
  · next h => exact .inr ⟨['"'], rfl, .inl (by decide), fun rest => by rw [h]; rfl⟩
  split
  · next h => exact .inr ⟨['\\'], rfl, .inl (by decide), fun rest => by rw [h]; rfl⟩
  split
  · next h => exact .inr ⟨['n'], rfl, .inl (by decide), fun rest => by rw [h]; rfl⟩
  split
  · next h => exact .inr ⟨['r'], rfl, .inl (by decide), fun rest => by rw [h]; rfl⟩
  split
  · next h => exact .inr ⟨['t'], rfl, .inl (by decide), fun rest => by rw [h]; rfl⟩
  split
  · next hbyte =>
    have hcode : c.toNat < 16 ^ 2 := by omega
    exact .inr ⟨_, rfl, .inr (.inl (isCoded_hex hcode hbyte.2)), escape?_byte hbyte.2⟩
  split
  · next hmark =>
    have hcode := toNat_of_isInvisible hmark
    exact .inr ⟨_, rfl, .inr (.inr (isCoded_hex hcode hcode)), escape?_codePoint hcode⟩
  · next hquote hback _ _ _ _ hmark =>
    rw [not_or, Bool.not_eq_true, Bool.not_eq_true] at hmark
    exact .inl ⟨rfl, hquote, hback, hmark.1, hmark.2⟩

/-- A character as it stands in a literal stands for its UTF-8. -/
theorem literalTail_escape (c : Char) (rest : List Char) :
    literalTail 0 (escape c ++ rest)
      = (literalTail 0 rest).map fun (value, rest) => (String.utf8EncodeChar c ++ value, rest) := by
  obtain ⟨hsame, hquote, hback, hcontrol, -⟩ | ⟨passed, hescape, -, hread⟩ := escape_cases c
  · have hline : c ≠ '\n' := by
      rintro rfl
      exact absurd hcontrol (by decide)
    rw [hsame, List.singleton_append, literalTail, if_neg hquote, if_neg hline, if_neg hback]
  · rw [hescape]
    exact literalTail_escaped passed (hread rest)

/-- A quoted text is read back from its literal. -/
theorem interpreted?_quoteChars (cs rest : List Char) :
    interpreted? (quoteChars cs ++ rest) = some (utf8 cs, rest) := by
  rw [quoteChars, List.cons_append, interpreted?, if_pos rfl, List.append_assoc]
  induction cs with
  | nil => simp [literalTail]
  | cons c cs ih =>
    rw [List.flatMap_cons, List.append_assoc, literalTail_escape, ih]
    rfl

theorem literalValue?_quoteChars (cs : List Char) :
    literalValue? (quoteChars cs) = some (utf8 cs) := by
  have hread := interpreted?_quoteChars cs []
  rw [List.append_nil] at hread
  rw [literalValue?, hread]

/-! ## Reading other texts -/

/-- The characters that no literal holds as they are. -/
def isMarked (c : Char) : Bool := c == '"' || c == '\\' || c == '\n'

/-- A text that needs no escapes is read as it is. -/
theorem literalTail_plain {cs : List Char} (h : ∀ c ∈ cs, isMarked c = false) (rest : List Char) :
    literalTail 0 (cs ++ '"' :: rest) = some (utf8 cs, rest) := by
  induction cs with
  | nil => simp [literalTail]
  | cons c cs ih =>
    have hc := h c List.mem_cons_self
    simp only [isMarked, Bool.or_eq_false_iff, beq_eq_false_iff_ne] at hc
    rw [List.cons_append, literalTail, if_neg hc.1.1, if_neg hc.2, if_neg hc.1.2,
      ih fun d hd => h d (List.mem_cons_of_mem _ hd)]
    rfl

theorem literalValue?_plain {cs : List Char} (h : ∀ c ∈ cs, isMarked c = false) :
    literalValue? ('"' :: (cs ++ ['"'])) = some (utf8 cs) := by
  rw [literalValue?, interpreted?, if_pos rfl, literalTail_plain h]

theorem length_utf8EncodeChar_pos (c : Char) : 0 < (String.utf8EncodeChar c).length := by
  rw [String.length_utf8EncodeChar]
  exact Char.utf8Size_pos c

theorem length_le_of_escape? {cs : List Char} {bytes : List UInt8} {used : Nat}
    (h : escape? cs = some (bytes, used)) : bytes.length ≤ used := by
  have hbyte {n : Nat} {bs : List UInt8} (hn : byte? n = some bs) : bs.length = 1 := by
    unfold byte? at hn
    split at hn
    · cases hn
      rfl
    · cases hn
  have hpoint {n : Nat} {bs : List UInt8} (hn : codePoint? n = some bs) : bs.length ≤ 4 := by
    unfold codePoint? at hn
    split at hn
    · cases hn
      rw [String.length_utf8EncodeChar]
      exact Char.utf8Size_le_four _
    · cases hn
  cases cs with
  | nil => cases h
  | cons c cs =>
    rw [escape?] at h
    split at h
    · cases h
      exact Nat.le_refl 1
    · split_ifs at h <;>
        (obtain ⟨bs, hbs, heq⟩ := Option.map_eq_some_iff.1 h
         obtain ⟨n, -, hn⟩ := Option.bind_eq_some_iff.1 hbs
         cases heq)
      · rw [hbyte hn]; decide
      · exact Nat.le_succ_of_le (hpoint hn)
      · exact Nat.le_trans (hpoint hn) (by decide)
      · rw [hbyte hn]; decide

/-- A literal stands for no more bytes than it is written with, and for fewer if it has escapes. -/
theorem exists_body_of_literalTail {pending : Nat} {cs rest : List Char} {value : List UInt8}
    (h : literalTail pending cs = some (value, rest)) :
    ∃ body, cs = body ++ '"' :: rest ∧ value.length + pending ≤ (utf8 body).length
      ∧ (pending = 0 → value.length = (utf8 body).length → ∀ c ∈ body, isMarked c = false) := by
  induction cs generalizing pending value with
  | nil => cases h
  | cons c cs ih =>
    have hc := length_utf8EncodeChar_pos c
    cases pending with
    | succ pending =>
      obtain ⟨body, rfl, hlength, -⟩ := ih h
      refine ⟨c :: body, rfl, ?_, fun hzero => absurd hzero (Nat.succ_ne_zero _)⟩
      rw [utf8_cons, List.length_append]
      omega
    | zero =>
      rw [literalTail] at h
      split_ifs at h with hquote hline hback
      · cases h
        exact ⟨[], by rw [hquote]; rfl, Nat.le_refl 0, fun _ _ c hc => absurd hc List.not_mem_nil⟩
      · split at h
        · cases h
        · next bytes used hescape =>
          obtain ⟨⟨value', rest'⟩, htail, heq⟩ := Option.map_eq_some_iff.1 h
          cases heq
          obtain ⟨body, rfl, hlength, -⟩ := ih htail
          have hbytes := length_le_of_escape? hescape
          -- The backslash is written and stands for nothing, so the value is shorter.
          refine ⟨c :: body, rfl, ?_, fun _ hsame => ?_⟩ <;>
            simp only [utf8_cons, List.length_append] at * <;> omega
      · obtain ⟨⟨value', rest'⟩, htail, heq⟩ := Option.map_eq_some_iff.1 h
        cases heq
        obtain ⟨body, rfl, hlength, hplain⟩ := ih htail
        refine ⟨c :: body, rfl, ?_, fun _ hsame => ?_⟩
        · simp only [utf8_cons, List.length_append]
          omega
        · simp only [utf8_cons, List.length_append] at hsame
          refine List.forall_mem_cons.2 ⟨?_, hplain rfl (by omega)⟩
          simp [isMarked, hquote, hback, hline]

/-! ## Lengths -/

theorem length_utf8_le_of_sublist {as bs : List Char} (h : as.Sublist bs) :
    (utf8 as).length ≤ (utf8 bs).length := by
  induction h with
  | slnil => exact Nat.le_refl 0
  | cons c _ ih => rw [utf8_cons, List.length_append]; omega
  | cons_cons c _ ih => rw [utf8_cons, utf8_cons, List.length_append, List.length_append]; omega

/-- Whatever is left out of a text, its UTF-8 gets shorter. -/
theorem eq_of_sublist_of_length_utf8 {as bs : List Char} (h : as.Sublist bs)
    (hlength : (utf8 bs).length ≤ (utf8 as).length) : as = bs := by
  induction h with
  | slnil => rfl
  | cons c h ih =>
    have hle := length_utf8_le_of_sublist h
    have hpos := length_utf8EncodeChar_pos c
    rw [utf8_cons, List.length_append] at hlength
    omega
  | cons_cons c _ ih =>
    rw [utf8_cons, utf8_cons, List.length_append, List.length_append] at hlength
    rw [ih (by omega)]

end GoScaffold.Go
