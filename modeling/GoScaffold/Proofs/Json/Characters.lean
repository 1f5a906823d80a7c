import GoScaffold.Json

set_option autoImplicit false

/-! # The characters of JSON texts

A JSON text is written with few characters besides those of the names, strings and numbers in it.
Any other character stands in the text only if it stands in one of them. -/

namespace GoScaffold.Json

open Text

/-- The characters that JSON itself is written with: brackets, commas, colons, quotes, white space,
the truth values and escapes. -/
def ownChars : List Char := "[]\x7b\x7d:, \n\"\\truefalsnb0123456789cd".toList

mutual

/-- Whether a character stands in no name, string or number of a value. -/
def Avoids (ch : Char) : Json → Prop
  | .bool _ => True
  | .number digits => ch ∉ digits.toList
  | .text s => ch ∉ s.toList
  | .array items => AvoidsItems ch items
  | .object members => AvoidsMembers ch members

/-- Whether a character stands in none of the values. -/
def AvoidsItems (ch : Char) : List Json → Prop
  | [] => True
  | item :: rest => Avoids ch item ∧ AvoidsItems ch rest

/-- Whether a character stands in none of the members. -/
def AvoidsMembers (ch : Char) : List (String × Json) → Prop
  | [] => True
  | (name, v) :: rest => ch ∉ name.toList ∧ Avoids ch v ∧ AvoidsMembers ch rest

end

variable {ch : Char}

theorem notMem_of_own {s : String} (hch : ch ∉ ownChars) (h : ∀ c ∈ s.toList, c ∈ ownChars) :
    ch ∉ s.toList := fun hmem => hch (h ch hmem)

theorem notMem_append {s t : String} (hs : ch ∉ s.toList) (ht : ch ∉ t.toList) :
    ch ∉ (s ++ t).toList := by
  rw [String.toList_append, List.mem_append, not_or]
  exact ⟨hs, ht⟩

theorem hexDigit_mem {n : Nat} (h : n < 16) : Go.hexDigit n ∈ ownChars := by
  have hall : ∀ n < 16, Go.hexDigit n ∈ ownChars := by decide
  exact hall n h

theorem hex_subset (places n : Nat) : ∀ c ∈ Go.hex places n, c ∈ ownChars := by
  induction places generalizing n with
  | zero => simp [Go.hex]
  | succ places ih =>
    intro c hc
    rcases List.mem_append.1 hc with hc | hc
    · exact ih (n / 16) c hc
    · rw [List.mem_singleton.1 hc]
      exact hexDigit_mem (Nat.mod_lt n (by decide))

/-- An escape is written with JSON's own characters, or it is the character itself. -/
theorem escape_subset (d : Char) : ∀ c ∈ escape d, c ∈ ownChars ∨ c = d := by
  have hshort (e : Char) (he : e ∈ ownChars) : ∀ c ∈ ['\\', e], c ∈ ownChars ∨ c = d := by
    intro c hc
    rcases List.mem_cons.1 hc with rfl | hc
    · exact Or.inl (by decide)
    · rw [List.mem_singleton.1 hc]
      exact Or.inl he
  intro c hc
  unfold escape at hc
  split at hc
  · exact hshort '"' (by decide) c hc
  split at hc
  · exact hshort '\\' (by decide) c hc
  split at hc
  · exact hshort 'n' (by decide) c hc
  split at hc
  · exact hshort 'r' (by decide) c hc
  split at hc
  · exact hshort 't' (by decide) c hc
  split at hc
  · exact hshort 'b' (by decide) c hc
  split at hc
  · exact hshort 'f' (by decide) c hc
  split at hc
  · rcases List.mem_cons.1 hc with rfl | hc
    · exact Or.inl (by decide)
    rcases List.mem_cons.1 hc with rfl | hc
    · exact Or.inl (by decide)
    · exact Or.inl (hex_subset 4 d.toNat c hc)
  · exact Or.inr (List.mem_singleton.1 hc)

theorem notMem_quote (hch : ch ∉ ownChars) {s : String} (h : ch ∉ s.toList) :
    ch ∉ (quote s).toList := by
  have hquote : ch ≠ '"' := by
    rintro rfl
    exact hch (by decide)
  rw [quote, toList_onChars, List.mem_cons, List.mem_append, List.mem_singleton]
  rintro (rfl | hmem | rfl)
  · exact hquote rfl
  · obtain ⟨d, hd, hc⟩ := List.mem_flatMap.1 hmem
    rcases escape_subset d ch hc with hown | rfl
    · exact hch hown
    · exact h hd
  · exact hquote rfl

theorem notMem_margin (hch : ch ∉ ownChars) (depth : Nat) : ch ∉ (margin depth).toList := by
  refine notMem_append (notMem_of_own hch (by decide)) ?_
  rw [String.toList_ofList]
  intro hmem
  rw [List.eq_of_mem_replicate hmem] at hch
  exact hch (by decide)

theorem notMem_leaf (hch : ch ∉ ownChars) {v : Json} (h : Avoids ch v) : ch ∉ (leaf v).toList := by
  cases v with
  | bool b => cases b <;> exact notMem_of_own hch (by decide)
  | number digits =>
    rw [Avoids] at h
    exact h
  | text s =>
    rw [Avoids] at h
    exact notMem_quote hch h
  | array items =>
    have hbrackets : ∀ c ∈ "[]".toList, c ∈ ownChars := by decide
    exact notMem_of_own hch hbrackets
  | object members =>
    have hbraces : ∀ c ∈ "\x7b\x7d".toList, c ∈ ownChars := by decide
    exact notMem_of_own hch hbraces

/-! ## Texts over several lines -/

section

variable (hch : ch ∉ ownChars)

include hch

mutual

theorem notMem_pretty (depth : Nat) (v : Json) (h : Avoids ch v) : ch ∉ (pretty depth v).toList := by
  match v, h with
  | .bool b, h => exact notMem_leaf hch h
  | .number digits, h => exact notMem_leaf hch h
  | .text s, h => exact notMem_leaf hch h
  | .array [], h => exact notMem_leaf hch h
  | .object [], h => exact notMem_leaf hch h
  | .array (item :: rest), h =>
    rw [Avoids, AvoidsItems] at h
    have hopening : ch ∉ "[".toList := notMem_of_own hch (by decide)
    have hclosing : ch ∉ "]".toList := notMem_of_own hch (by decide)
    have hitem := notMem_pretty (depth + 1) item h.1
    have hrest := notMem_prettyItems (depth + 1) rest h.2
    rw [pretty]
    refine notMem_append (notMem_append (notMem_append (notMem_append (notMem_append hopening ?_)
      hitem) hrest) ?_) hclosing
    · exact notMem_margin hch _
    · exact notMem_margin hch _
  | .object ((name, v) :: rest), h =>
    rw [Avoids, AvoidsMembers] at h
    have hopening : ch ∉ "\x7b".toList := notMem_of_own hch (by decide)
    have hcolon : ch ∉ ": ".toList := notMem_of_own hch (by decide)
    have hclosing : ch ∉ "\x7d".toList := notMem_of_own hch (by decide)
    have hname := notMem_quote hch h.1
    have hv := notMem_pretty (depth + 1) v h.2.1
    have hrest := notMem_prettyMembers (depth + 1) rest h.2.2
    rw [pretty]
    refine notMem_append (notMem_append (notMem_append (notMem_append (notMem_append (notMem_append
      (notMem_append hopening ?_) hname) hcolon) hv) hrest) ?_) hclosing
    · exact notMem_margin hch _
    · exact notMem_margin hch _

theorem notMem_prettyItems (depth : Nat) (items : List Json) (h : AvoidsItems ch items) :
    ch ∉ (prettyItems depth items).toList := by
  match items, h with
  | [], _ => simp [prettyItems]
  | item :: rest, h =>
    rw [AvoidsItems] at h
    have hcomma : ch ∉ ",".toList := notMem_of_own hch (by decide)
    have hitem := notMem_pretty depth item h.1
    have hrest := notMem_prettyItems depth rest h.2
    rw [prettyItems]
    exact notMem_append (notMem_append (notMem_append hcomma (notMem_margin hch _)) hitem) hrest

theorem notMem_prettyMembers (depth : Nat) (members : List (String × Json))
    (h : AvoidsMembers ch members) : ch ∉ (prettyMembers depth members).toList := by
  match members, h with
  | [], _ => simp [prettyMembers]
  | (name, v) :: rest, h =>
    rw [AvoidsMembers] at h
    have hcomma : ch ∉ ",".toList := notMem_of_own hch (by decide)
    have hcolon : ch ∉ ": ".toList := notMem_of_own hch (by decide)
    have hname := notMem_quote hch h.1
    have hv := notMem_pretty depth v h.2.1
    have hrest := notMem_prettyMembers depth rest h.2.2
    rw [prettyMembers]
    exact notMem_append (notMem_append (notMem_append (notMem_append (notMem_append hcomma
      (notMem_margin hch _)) hname) hcolon) hv) hrest

end

/-! ## Texts on one line -/

mutual

theorem notMem_compact (v : Json) (h : Avoids ch v) : ch ∉ (compact v).toList := by
  match v, h with
  | .bool b, h => exact notMem_leaf hch h
  | .number digits, h => exact notMem_leaf hch h
  | .text s, h => exact notMem_leaf hch h
  | .array [], h => exact notMem_leaf hch h
  | .object [], h => exact notMem_leaf hch h
  | .array (item :: rest), h =>
    rw [Avoids, AvoidsItems] at h
    have hopening : ch ∉ "[".toList := notMem_of_own hch (by decide)
    have hclosing : ch ∉ "]".toList := notMem_of_own hch (by decide)
    have hitem := notMem_compact item h.1
    have hrest := notMem_compactItems rest h.2
    rw [compact]
    exact notMem_append (notMem_append (notMem_append hopening hitem) hrest) hclosing
  | .object ((name, v) :: rest), h =>
    rw [Avoids, AvoidsMembers] at h
    have hopening : ch ∉ "\x7b".toList := notMem_of_own hch (by decide)
    have hcolon : ch ∉ ":".toList := notMem_of_own hch (by decide)
    have hclosing : ch ∉ "\x7d".toList := notMem_of_own hch (by decide)
    have hname := notMem_quote hch h.1
    have hv := notMem_compact v h.2.1
    have hrest := notMem_compactMembers rest h.2.2
    rw [compact]
    exact notMem_append (notMem_append (notMem_append (notMem_append (notMem_append hopening hname)
      hcolon) hv) hrest) hclosing

theorem notMem_compactItems (items : List Json) (h : AvoidsItems ch items) :
    ch ∉ (compactItems items).toList := by
  match items, h with
  | [], _ => simp [compactItems]
  | item :: rest, h =>
    rw [AvoidsItems] at h
    have hcomma : ch ∉ ",".toList := notMem_of_own hch (by decide)
    rw [compactItems]
    exact notMem_append (notMem_append hcomma (notMem_compact item h.1))
      (notMem_compactItems rest h.2)

theorem notMem_compactMembers (members : List (String × Json)) (h : AvoidsMembers ch members) :
    ch ∉ (compactMembers members).toList := by
  match members, h with
  | [], _ => simp [compactMembers]
  | (name, v) :: rest, h =>
    rw [AvoidsMembers] at h
    have hcomma : ch ∉ ",".toList := notMem_of_own hch (by decide)
    have hcolon : ch ∉ ":".toList := notMem_of_own hch (by decide)
    rw [compactMembers]
    exact notMem_append (notMem_append (notMem_append (notMem_append hcomma
      (notMem_quote hch h.1)) hcolon) (notMem_compact v h.2.1)) (notMem_compactMembers rest h.2.2)

end

end

/-! ## Members -/

theorem avoidsMembers_set {members : List (String × Json)} {name : String} {v : Json}
    (h : AvoidsMembers ch members) (hname : ch ∉ name.toList) (hv : Avoids ch v) :
    AvoidsMembers ch (set members name v) := by
  induction members with
  | nil =>
    rw [set, AvoidsMembers]
    exact ⟨hname, hv, h⟩
  | cons m rest ih =>
    obtain ⟨n, w⟩ := m
    rw [AvoidsMembers] at h
    rw [set]
    split
    · rw [AvoidsMembers]
      exact ⟨h.1, hv, h.2.2⟩
    · rw [AvoidsMembers]
      exact ⟨h.1, h.2.1, ih h.2.2⟩

end GoScaffold.Json
