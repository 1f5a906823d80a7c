set_option autoImplicit false

/-! # Patterns of shell scripts

A pattern matches a whole text: `*` stands for any text, `?` for any character, and brackets for one
of some characters or ranges. In quotes these signs stand for themselves. -/

namespace GoScaffold.Script

/-- A part of a pattern. -/
inductive Mark
  | one (c : Char)
  | any
  | many
  /-- One character in the ranges, or in none of them. -/
  | among (negated : Bool) (ranges : List (Char × Char))
  deriving DecidableEq, Repr

namespace Mark

/-- The ranges up to the closing bracket, and how many characters they took with it; `first` says
that a bracket would stand for itself. -/
def ranges? : (first : Bool) → List (Char × Bool) → Option (List (Char × Char) × Nat)
  | _, [] => none
  | first, (c, quoted) :: ('-', false) :: (d, q) :: rest =>
    if isEnd first c quoted then some ([], 1)
    else if isEnd false d q then
      (ranges? false (('-', false) :: (d, q) :: rest)).map fun (rs, n) => ((c, c) :: rs, n + 1)
    else (ranges? false rest).map fun (rs, n) => ((c, d) :: rs, n + 3)
  | first, (c, quoted) :: rest =>
    if isEnd first c quoted then some ([], 1)
    else (ranges? false rest).map fun (rs, n) => ((c, c) :: rs, n + 1)
where
  /-- Whether this is the closing bracket. -/
  isEnd (first : Bool) (c : Char) (quoted : Bool) : Bool := c == ']' && !quoted && !first

/-- The marks of a text whose characters may be quoted; `skipped` characters belong to the mark
before. -/
def read : (skipped : Nat) → List (Char × Bool) → List Mark
  | _, [] => []
  | skipped + 1, _ :: rest => read skipped rest
  | 0, (c, true) :: rest => .one c :: read 0 rest
  | 0, ('*', false) :: rest => .many :: read 0 rest
  | 0, ('?', false) :: rest => .any :: read 0 rest
  | 0, ('[', false) :: rest =>
    let negated := (rest.head?.map fun p => p == ('!', false) || p == ('^', false)).getD false
    let body := if negated then rest.drop 1 else rest
    match ranges? true body with
    | some (rs, n) => .among negated rs :: read (if negated then n + 1 else n) rest
    | none => .one '[' :: read 0 rest
  | 0, (c, false) :: rest => .one c :: read 0 rest

/-- Whether a mark that is no `*` stands for a character. -/
def has (c : Char) : Mark → Bool
  | one d => c == d
  | any => true
  | many => false
  | among negated ranges => ranges.any (fun (a, b) => a ≤ c && c ≤ b) != negated

end Mark

/-- Whether marks match a whole text. -/
def matchesAll : List Mark → List Char → Bool
  | [], cs => cs.isEmpty
  | .many :: ms, cs => (List.range (cs.length + 1)).any fun n => matchesAll ms (cs.drop n)
  | m :: ms, c :: cs => m.has c && matchesAll ms cs
  | _ :: _, [] => false

/-- The text without what the marks match at its front, or at its end; of several matches the
shortest or the longest one. -/
def cut (atEnd longest : Bool) (ms : List Mark) (cs : List Char) : List Char :=
  let sizes := List.range (cs.length + 1)
  let sizes := if longest then sizes.reverse else sizes
  let fits (n : Nat) : Bool :=
    matchesAll ms (if atEnd then cs.drop (cs.length - n) else cs.take n)
  match sizes.find? fits with
  | some n => if atEnd then cs.take (cs.length - n) else cs.drop n
  | none => cs

end GoScaffold.Script
