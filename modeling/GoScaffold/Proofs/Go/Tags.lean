import GoScaffold.Proofs.Go.Interpreted

set_option autoImplicit false

/-! # Struct tags

A tag is written as a raw string: between backticks, without a way to write a backtick, and carriage
returns in it do not count. What it stands for is read by convention as pairs with one space between
each two of them, a pair being a key, a colon and a value that is an interpreted string literal. A
value that needs no escapes is read as it is written (`pairs?_plain`). One that is written without
regard to escapes and holds what a literal does not is never read as it was written
(`plain_of_pairs?`): the value that is read then is shorter. -/

namespace GoScaffold.Go

/-! ## Reading tags -/

/-- What a raw string literal stands for. -/
def rawValue? (cs : List Char) : Option (List Char) :=
  match Text.between? '`' '`' cs with
  | none => none
  | some body => if '`' ∈ body then none else some (body.filter (· != '\r'))

/-- The characters of keys. -/
def isKeyChar (c : Char) : Bool := decide (' ' < c) && c != ':' && c != '"' && c != '\x7f'

/-- The pair that a text begins with, and what follows it. -/
def pair? (cs : List Char) : Option ((List Char × List UInt8) × List Char) :=
  match cs.takeWhile isKeyChar, cs.dropWhile isKeyChar with
  | k :: key, ':' :: rest => (interpreted? rest).map fun (value, rest) => ((k :: key, value), rest)
  | _, _ => none

theorem length_of_interpreted? {cs rest : List Char} {value : List UInt8}
    (h : interpreted? cs = some (value, rest)) : rest.length < cs.length := by
  cases cs with
  | nil => cases h
  | cons c cs =>
    rw [interpreted?] at h
    split at h
    · obtain ⟨body, rfl, -⟩ := exists_body_of_literalTail h
      simp only [List.length_cons, List.length_append]
      omega
    · cases h

theorem length_of_pair? {cs rest : List Char} {pair : List Char × List UInt8}
    (h : pair? cs = some (pair, rest)) : rest.length < cs.length := by
  unfold pair? at h
  split at h
  · next k key quoted _ hdrop =>
    obtain ⟨⟨value, rest'⟩, hread, heq⟩ := Option.map_eq_some_iff.1 h
    cases heq
    have hshorter := length_of_interpreted? hread
    have hdropped := (List.dropWhile_sublist isKeyChar (l := cs)).length_le
    rw [hdrop, List.length_cons] at hdropped
    omega
  · cases h

/-- The pairs of a tag, in order. -/
def pairs? (cs : List Char) : Option (List (List Char × List UInt8)) :=
  match _h : pair? cs with
  | none => none
  | some (pair, []) => some [pair]
  | some (pair, c :: rest) => if c = ' ' then (pairs? rest).map (pair :: ·) else none
termination_by cs.length
decreasing_by
  have hshorter := length_of_pair? _h
  simp only [List.length_cons] at hshorter
  omega

/-- The pairs of a tag as it stands in the code. -/
def tagPairs? (cs : List Char) : Option (List (List Char × List UInt8)) := (rawValue? cs).bind pairs?

/-! ## Raw strings -/

theorem rawValue?_eq_some {body value : List Char} :
    rawValue? ('`' :: (body ++ ['`'])) = some value
      ↔ '`' ∉ body ∧ value = body.filter (· != '\r') := by
  have hbetween : Text.between? '`' '`' ('`' :: (body ++ ['`'])) = some body :=
    Text.between?_eq_some.2 rfl
  rw [rawValue?, hbetween]
  dsimp only
  split
  · next h => exact iff_of_false (by simp) fun hbody => hbody.1 h
  · next h => rw [Option.some.injEq, and_iff_right h, eq_comm]

/-! ## Pairs -/

theorem exists_pair_of_pairs? {cs : List Char} {pairs : List (List Char × List UInt8)}
    (h : pairs? cs = some pairs) :
    ∃ pair rest more, pair? cs = some (pair, rest) ∧ pairs = pair :: more := by
  rw [pairs?] at h
  split at h
  · cases h
  · next pair hpair =>
    cases h
    exact ⟨pair, [], [], hpair, rfl⟩
  · next pair c rest hpair =>
    split at h
    · obtain ⟨more, -, rfl⟩ := Option.map_eq_some_iff.1 h
      exact ⟨pair, c :: rest, more, hpair, rfl⟩
    · cases h

section

variable {key : List Char} (hkey : key ≠ []) (hchars : ∀ c ∈ key, isKeyChar c = true)

include hkey hchars

theorem pair?_written (rest : List Char) :
    pair? (key ++ ':' :: rest)
      = (interpreted? rest).map fun (value, rest) => ((key, value), rest) := by
  have hcolon : isKeyChar ':' = false := by decide
  have htake : (key ++ ':' :: rest).takeWhile isKeyChar = key := by
    rw [List.takeWhile_append_of_pos hchars, List.takeWhile_cons_of_neg (by simp [hcolon]),
      List.append_nil]
  have hdrop : (key ++ ':' :: rest).dropWhile isKeyChar = ':' :: rest := by
    rw [List.dropWhile_append_of_pos hchars, List.dropWhile_cons_of_neg (by simp [hcolon])]
  obtain ⟨k, more, rfl⟩ := List.exists_cons_of_ne_nil hkey
  rw [pair?, htake, hdrop]
  rfl

/-- A value without marks is read as it is written. -/
theorem pair?_plain {body : List Char} (hbody : ∀ c ∈ body, isMarked c = false) (rest : List Char) :
    pair? (key ++ ':' :: '"' :: (body ++ '"' :: rest)) = some ((key, utf8 body), rest) := by
  rw [pair?_written hkey hchars, interpreted?, if_pos rfl, literalTail_plain hbody]
  rfl

theorem pairs?_plain {body : List Char} (hbody : ∀ c ∈ body, isMarked c = false) :
    pairs? (key ++ ':' :: '"' :: (body ++ ['"'])) = some [(key, utf8 body)] := by
  have hread := pair?_plain hkey hchars hbody []
  rw [pairs?]
  split
  · next h => rw [hread] at h; cases h
  · next pair h => rw [hread] at h; cases h; rfl
  · next pair c rest h => rw [hread] at h; cases h

theorem pairs?_cons {body : List Char} (hbody : ∀ c ∈ body, isMarked c = false) (rest : List Char) :
    pairs? (key ++ ':' :: '"' :: (body ++ '"' :: ' ' :: rest))
      = (pairs? rest).map ((key, utf8 body) :: ·) := by
  have hread := pair?_plain hkey hchars hbody (' ' :: rest)
  rw [pairs?]
  split
  · next h => rw [hread] at h; cases h
  · next pair h => rw [hread] at h; cases h
  · next pair c rest h => rw [hread] at h; cases h; rfl

/-- The value of a pair that is written last stands for no more than what is written between its
quotes, and for less if a mark is among that. -/
theorem plain_of_pairs? {body : List Char} {pairs : List (List Char × List UInt8)} {value : List UInt8}
    (h : pairs? (key ++ ':' :: '"' :: (body ++ ['"'])) = some pairs)
    (hlookup : pairs.lookup key = some value) (hlength : (utf8 body).length ≤ value.length) :
    value = utf8 body ∧ ∀ c ∈ body, isMarked c = false := by
  obtain ⟨pair, after, more, hpair, rfl⟩ := exists_pair_of_pairs? h
  rw [pair?_written hkey hchars, interpreted?, if_pos rfl] at hpair
  obtain ⟨⟨read, rest⟩, hread, heq⟩ := Option.map_eq_some_iff.1 hpair
  cases heq
  rw [List.lookup_cons_self, Option.some.injEq] at hlookup
  rw [hlookup] at hread
  obtain ⟨used, hused, hle, hplain⟩ := exists_body_of_literalTail hread
  have hprefix : used <+: body := by
    rcases List.append_eq_append_iff.1 hused with ⟨a, rfl, ha⟩ | ⟨c, hc, -⟩
    · cases a with
      | nil => exact ⟨[], by simp⟩
      | cons d a =>
        have := congrArg List.length ha
        simp at this
    · exact ⟨c, hc.symm⟩
  have hshorter := length_utf8_le_of_sublist hprefix.sublist
  have hsame : used = body :=
    eq_of_sublist_of_length_utf8 hprefix.sublist (by omega)
  rw [hsame] at hplain hle
  have hmarks := hplain rfl (by omega)
  have hwhole := literalTail_plain hmarks []
  rw [hread, Option.some.injEq, Prod.mk.injEq] at hwhole
  exact ⟨hwhole.1, hmarks⟩

end

end GoScaffold.Go
