import GoScaffold.Proofs.Go.Interpreted

set_option autoImplicit false

/-! # How string literals are written

The body of an interpreted string literal is a row of parts, each a character that stands for itself
or an escape. A quoted text is written with few kinds of escapes, shows no control character, and is
read back from its literal byte by byte (`encodes_quote`). -/

namespace GoScaffold.Go

/-! ## The parts of a literal -/

/-- A part of the body of a literal. -/
inductive LiteralPart where
  /-- A character that stands for itself. -/
  | plain (c : Char)
  /-- An escape, without its backslash, and the bytes it stands for. -/
  | escaped (cs : List Char) (bytes : List UInt8)

namespace LiteralPart

/-- The part as it stands in the literal. -/
def written : LiteralPart → List Char
  | plain c => [c]
  | escaped cs _ => '\\' :: cs

/-- What the part stands for. -/
def bytes : LiteralPart → List UInt8
  | plain c => String.utf8EncodeChar c
  | escaped _ bytes => bytes

/-- A plain part is no quote and no backslash, and an escape is of the kinds that quoting uses. -/
def IsAllowed : LiteralPart → Prop
  | plain c => c ≠ '"' ∧ c ≠ '\\'
  | escaped cs _ => IsWrittenEscape cs

end LiteralPart

/-- The parts of a literal and what follows it, after its opening quote; `pending` characters of an
escape are still to be passed over. -/
def partsTail : Nat → List Char → Option (List LiteralPart × List Char)
  | _, [] => none
  | pending + 1, _ :: cs => partsTail pending cs
  | 0, c :: cs =>
    if c = '"' then some ([], cs)
    else if c = '\n' then none
    else if c = '\\' then
      match escape? cs with
      | none => none
      | some (bytes, used) =>
        (partsTail used cs).map fun (parts, rest) => (.escaped (cs.take used) bytes :: parts, rest)
    else (partsTail 0 cs).map fun (parts, rest) => (.plain c :: parts, rest)

/-- The parts of a text that is one literal. -/
def literalParts? : List Char → Option (List LiteralPart)
  | [] => none
  | c :: cs =>
    if c = '"' then
      match partsTail 0 cs with
      | some (parts, []) => some parts
      | _ => none
    else none

/-- The value of a literal is what its parts stand for. -/
theorem literalTail_eq_parts (pending : Nat) (cs : List Char) :
    literalTail pending cs
      = (partsTail pending cs).map fun (parts, rest) => (parts.flatMap LiteralPart.bytes, rest) := by
  induction cs generalizing pending with
  | nil => rfl
  | cons c cs ih =>
    cases pending with
    | succ pending => exact ih pending
    | zero =>
      rw [literalTail, partsTail]
      split_ifs
      · rfl
      · rfl
      · cases escape? cs with
        | none => rfl
        | some read =>
          obtain ⟨bytes, used⟩ := read
          show (literalTail used cs).map _ = ((partsTail used cs).map _).map _
          rw [ih used, Option.map_map, Option.map_map]
          rfl
      · rw [ih 0, Option.map_map, Option.map_map]
        rfl

theorem literalValue?_eq_parts (cs : List Char) :
    literalValue? cs = (literalParts? cs).map fun parts => parts.flatMap LiteralPart.bytes := by
  cases cs with
  | nil => rfl
  | cons c cs =>
    rw [literalValue?, interpreted?, literalParts?, literalTail_eq_parts]
    split_ifs
    · cases partsTail 0 cs with
      | none => rfl
      | some read =>
        obtain ⟨parts, rest⟩ := read
        cases rest <;> rfl
    · rfl

theorem partsTail_pending (passed rest : List Char) :
    partsTail passed.length (passed ++ rest) = partsTail 0 rest := by
  induction passed with
  | nil => rfl
  | cons c passed ih => exact ih

/-! ## Quoted texts -/

/-- The part of a literal that a character is written as. -/
theorem exists_part (c : Char) :
    ∃ part : LiteralPart, part.written = escape c ∧ part.bytes = String.utf8EncodeChar c
      ∧ part.IsAllowed ∧ ∀ rest, partsTail 0 (escape c ++ rest)
        = (partsTail 0 rest).map fun (parts, rest) => (part :: parts, rest) := by
  obtain ⟨hsame, hquote, hback, hcontrol, -⟩ | ⟨passed, hescape, hused, hread⟩ := escape_cases c
  · have hline : c ≠ '\n' := by
      rintro rfl
      exact absurd hcontrol (by decide)
    refine ⟨.plain c, hsame.symm, rfl, ⟨hquote, hback⟩, fun rest => ?_⟩
    rw [hsame, List.singleton_append, partsTail, if_neg hquote, if_neg hline, if_neg hback]
  · refine ⟨.escaped passed (String.utf8EncodeChar c), hescape.symm, rfl, hused, fun rest => ?_⟩
    have hpending := partsTail_pending passed rest
    have htake : (passed ++ rest).take passed.length = passed := List.take_left
    rw [hescape, List.cons_append]
    simp [partsTail, hread rest, hpending, htake]

/-- The parts that a text is written as. -/
theorem exists_parts (cs rest : List Char) :
    ∃ parts : List LiteralPart, partsTail 0 (cs.flatMap escape ++ '"' :: rest) = some (parts, rest)
      ∧ parts.flatMap LiteralPart.written = cs.flatMap escape
      ∧ parts.flatMap LiteralPart.bytes = utf8 cs ∧ ∀ part ∈ parts, part.IsAllowed := by
  induction cs with
  | nil => exact ⟨[], by simp [partsTail], rfl, rfl, fun _ h => absurd h List.not_mem_nil⟩
  | cons c cs ih =>
    obtain ⟨part, hwritten, hbytes, hallowed, hread⟩ := exists_part c
    obtain ⟨parts, hparts, hwrittens, hvalue, halloweds⟩ := ih
    refine ⟨part :: parts, ?_, ?_, ?_, List.forall_mem_cons.2 ⟨hallowed, halloweds⟩⟩
    · rw [List.flatMap_cons, List.append_assoc, hread, hparts]
      rfl
    · rw [List.flatMap_cons, List.flatMap_cons, hwritten, hwrittens]
    · rw [List.flatMap_cons, hbytes, hvalue, utf8_cons]

/-- The parts of a literal that a text is quoted as. -/
theorem exists_literalParts (cs : List Char) :
    ∃ parts : List LiteralPart, literalParts? (quoteChars cs) = some parts
      ∧ quoteChars cs = '"' :: (parts.flatMap LiteralPart.written ++ ['"'])
      ∧ parts.flatMap LiteralPart.bytes = utf8 cs ∧ ∀ part ∈ parts, part.IsAllowed := by
  obtain ⟨parts, hread, hwritten, hvalue, hallowed⟩ := exists_parts cs []
  refine ⟨parts, ?_, ?_, hvalue, hallowed⟩
  · rw [quoteChars, literalParts?, if_pos rfl, hread]
  · rw [quoteChars, hwritten]

/-! ## What can be seen -/

/-- A character that is no control character and shows a mark of its own. -/
def isShown (c : Char) : Bool := !isControl c && !isInvisible c

/-- Digits stand in three ranges of codes. -/
theorem toNat_of_digit? {c : Char} {d : Nat} (h : digit? 16 c = some d) :
    (48 ≤ c.toNat ∧ c.toNat ≤ 57) ∨ (97 ≤ c.toNat ∧ c.toNat ≤ 102) ∨ (65 ≤ c.toNat ∧ c.toNat ≤ 70) := by
  rw [digit?] at h
  by_cases hdigit : c.isDigit
  · exact .inl (Char.isDigit_iff_toNat.1 hdigit)
  by_cases hlower : (decide ('a' ≤ c) && decide (c ≤ 'f')) = true
  · rw [Bool.and_eq_true] at hlower
    exact .inr (.inl ⟨of_decide_eq_true hlower.1, of_decide_eq_true hlower.2⟩)
  by_cases hupper : (decide ('A' ≤ c) && decide (c ≤ 'F')) = true
  · rw [Bool.and_eq_true] at hupper
    exact .inr (.inr ⟨of_decide_eq_true hupper.1, of_decide_eq_true hupper.2⟩)
  simp [hdigit, hlower, hupper] at h

theorem isShown_of_digit? {c : Char} {d : Nat} (h : digit? 16 c = some d) : isShown c = true := by
  have hcode := toNat_of_digit? h
  simp only [isShown, isControl, isInvisible, Bool.and_eq_true, Bool.not_eq_true',
    Bool.or_eq_false_iff, Bool.and_eq_false_iff, decide_eq_false_iff_not, beq_eq_false_iff_ne]
  omega

theorem isShown_of_number? {n m : Nat} {cs : List Char} (h : number? 16 n cs = some m) :
    ∀ c ∈ cs, isShown c = true := by
  induction cs generalizing n with
  | nil => exact fun _ hc => absurd hc List.not_mem_nil
  | cons c cs ih =>
    obtain ⟨d, hd, hrest⟩ := Option.bind_eq_some_iff.1 h
    exact List.forall_mem_cons.2 ⟨isShown_of_digit? hd, ih hrest⟩

/-- The escapes that quoting uses can be seen. -/
theorem isShown_of_isWrittenEscape {cs : List Char} (h : IsWrittenEscape cs) :
    ∀ c ∈ cs, isShown c = true := by
  have hcoded {letter : Char} {places limit : Nat} (hletter : isShown letter = true)
      (h : IsCoded letter places limit cs) : ∀ c ∈ cs, isShown c = true := by
    obtain ⟨digits, n, rfl, -, hn, -⟩ := h
    exact List.forall_mem_cons.2 ⟨hletter, isShown_of_number? hn⟩
  rcases h with h | h | h
  · have hall : ∀ cs ∈ [['\\'], ['"'], ['n'], ['r'], ['t']], ∀ c ∈ cs, isShown c = true := by decide
    exact hall cs h
  · exact hcoded (by decide) h
  · exact hcoded (by decide) h

theorem isShown_of_mem_quoteChars {cs : List Char} {d : Char} (h : d ∈ quoteChars cs) :
    isShown d = true := by
  have hquote : isShown '"' = true := by decide
  rcases List.mem_cons.1 h with rfl | h
  · exact hquote
  rcases List.mem_append.1 h with h | h
  · obtain ⟨c, -, hd⟩ := List.mem_flatMap.1 h
    obtain ⟨hsame, -, -, hcontrol, hinvisible⟩ | ⟨passed, hescape, hused, -⟩ := escape_cases c
    · rw [hsame, List.mem_singleton] at hd
      rw [hd, isShown, hcontrol, hinvisible]
      rfl
    · rw [hescape] at hd
      rcases List.mem_cons.1 hd with rfl | hd
      · decide
      · exact isShown_of_isWrittenEscape hused d hd
  · rw [List.mem_singleton.1 h]
    exact hquote

/-! ## The encoding -/

/-- A literal encodes a string. -/
structure Encodes (literal : List Char) (s : String) : Prop where
  /-- Between the first and the last quote stand the parts that the literal is read as: escapes of
  the kinds that quoting uses, and characters that are no quotes and no backslashes. -/
  enclosed : ∃ parts : List LiteralPart, literalParts? literal = some parts
    ∧ literal = '"' :: (parts.flatMap LiteralPart.written ++ ['"']) ∧ ∀ part ∈ parts, part.IsAllowed
  /-- Control characters and the byte order mark do not stand in it as they are. -/
  shown : ∀ c ∈ literal, isControl c = false ∧ c ≠ '\uFEFF'
  /-- It is read as the string, byte by byte. -/
  read : literalValue? literal = some s.toUTF8.data.toList

theorem toList_quote (s : String) : (quote s).toList = quoteChars s.toList := Text.toList_onChars _ s

/-- Quoting encodes every string. -/
theorem encodes_quote (s : String) : Encodes (quote s).toList s where
  enclosed := by
    obtain ⟨parts, hread, hwritten, -, hallowed⟩ := exists_literalParts s.toList
    rw [toList_quote]
    exact ⟨parts, hread, hwritten, hallowed⟩
  shown := by
    intro c hc
    rw [toList_quote] at hc
    have hshown := isShown_of_mem_quoteChars hc
    rw [isShown, Bool.and_eq_true, Bool.not_eq_true', Bool.not_eq_true'] at hshown
    refine ⟨hshown.1, ?_⟩
    rintro rfl
    exact absurd hshown.2 (by decide)
  read := by
    obtain ⟨parts, hread, -, hvalue, -⟩ := exists_literalParts s.toList
    rw [toList_quote, literalValue?_eq_parts, hread, Option.map_some, hvalue, utf8_toList]

/-- A digit after an escape is none of its digits. -/
example : quoteChars ['\x01', '1', '\uFEFF', 'f'] = "\"\\x011\\ufefff\"".toList := by decide

end GoScaffold.Go
