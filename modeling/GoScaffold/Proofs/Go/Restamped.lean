import GoScaffold.Go.Marker
import GoScaffold.Proofs.Go.References
import GoScaffold.Proofs.Sql.Stripping
import GoScaffold.Proofs.Text.Lines

set_option autoImplicit false

/-! # Stamping again

A stamped marker ends at the first two underscores in it, so it is stamped again in its place if the path
in it holds none. And a carriage return is dropped from the end of each line but the last one, one on every
run. So stamping again is stamping anew if and only if that path is free of two underscores in a row, and
then for exactly the texts without two carriage returns before a line feed (`stamp_stamp_iff`). -/

namespace GoScaffold.Go.Marker

open Text

/-! ## First occurrences -/

variable {part cs before after : List Char}

/-- What begins before a part of a text begins in what stands before the last character of the part. -/
theorem prefix_append_dropLast (hbefore : before ≠ [])
    (h : part <+: before ++ (part ++ after)) : part <+: before ++ part.dropLast := by
  have hfront : before ++ part.dropLast <+: before ++ (part ++ after) :=
    (List.prefix_append_right_inj before).2 ((List.dropLast_prefix part).trans (List.prefix_append part after))
  refine List.prefix_of_prefix_length_le h hfront ?_
  have hpos := List.length_pos_iff.2 hbefore
  rw [List.length_append, List.length_dropLast]
  omega

theorem not_prefix_of_dropPrefix? (h : dropPrefix? part cs = none) : ¬part <+: cs := by
  rintro ⟨rest, hrest⟩
  rw [dropPrefix?_eq_some.2 hrest.symm] at h
  cases h

theorem cutAt?_cons_of_some {c : Char} {rest : List Char} (h : dropPrefix? part (c :: cs) = some rest) :
    cutAt? part (c :: cs) = some ([], rest) := by
  rw [cutAt?, h]

theorem cutAt?_cons_ne_of_none {c : Char} (h : dropPrefix? part (c :: cs) = none) :
    cutAt? part (c :: cs) ≠ some ([], after) := by
  rw [cutAt?, h]
  simp

theorem cutAt?_cons_eq_some_iff {c d : Char} (h : dropPrefix? part (c :: cs) = none) :
    cutAt? part (c :: cs) = some (d :: before, after)
      ↔ c = d ∧ cutAt? part cs = some (before, after) := by
  rw [cutAt?, h]
  cases cutAt? part cs with
  | none => simp
  | some found => simp [Prod.ext_iff, and_assoc]

/-- A text is cut at a part where the part stands, if it stands nowhere before. -/
theorem cutAt?_eq_some_iff (hpart : part ≠ []) :
    cutAt? part cs = some (before, after)
      ↔ cs = before ++ (part ++ after) ∧ ¬part <:+: before ++ part.dropLast := by
  induction cs generalizing before with
  | nil => simp [cutAt?, hpart]
  | cons c cs ih =>
    cases hdrop : dropPrefix? part (c :: cs) with
    | some rest =>
      have hcs := dropPrefix?_eq_some.1 hdrop
      have hprefix : part <+: c :: cs := ⟨rest, hcs.symm⟩
      cases before with
      | nil =>
        have hshort : ¬part <:+: part.dropLast := fun h => by
          have hle := h.length_le
          have hpos := List.length_pos_iff.2 hpart
          rw [List.length_dropLast] at hle
          omega
        rw [cutAt?_cons_of_some hdrop, hcs]
        simp [hshort]
      | cons d before =>
        refine iff_of_false (by simp [cutAt?_cons_of_some hdrop]) ?_
        rintro ⟨hsplit, hnot⟩
        rw [hsplit] at hprefix
        exact hnot (prefix_append_dropLast (List.cons_ne_nil d before) hprefix).isInfix
    | none =>
      have hnone : ¬part <+: c :: cs := not_prefix_of_dropPrefix? hdrop
      cases before with
      | nil =>
        refine iff_of_false (cutAt?_cons_ne_of_none hdrop) ?_
        rintro ⟨hsplit, -⟩
        exact hnone ⟨after, hsplit.symm⟩
      | cons d before =>
        have hfirst (hsplit : c :: cs = d :: before ++ (part ++ after)) :
            ¬part <+: d :: (before ++ part.dropLast) := by
          intro h
          refine hnone (h.trans ?_)
          rw [hsplit, List.cons_append, List.prefix_cons_inj, List.prefix_append_right_inj]
          exact (List.dropLast_prefix part).trans (List.prefix_append part after)
        simp only [cutAt?_cons_eq_some_iff hdrop, ih, List.cons_append, List.cons.injEq,
          List.infix_cons_iff, not_or]
        constructor
        · rintro ⟨rfl, rfl, hnot⟩
          exact ⟨⟨rfl, rfl⟩, hfirst rfl, hnot⟩
        · rintro ⟨⟨rfl, rfl⟩, -, hnot⟩
          exact ⟨rfl, rfl, hnot⟩

/-- A text that holds a part is cut at it. -/
theorem exists_cutAt? (hpart : part ≠ []) (h : part <:+: cs) :
    ∃ before after, cutAt? part cs = some (before, after) := by
  induction cs with
  | nil => exact absurd (List.infix_nil.1 h) hpart
  | cons c cs ih =>
    rw [cutAt?]
    cases hdrop : dropPrefix? part (c :: cs) with
    | some rest => exact ⟨[], rest, rfl⟩
    | none =>
      have htail : part <:+: cs :=
        (List.infix_cons_iff.1 h).resolve_left (not_prefix_of_dropPrefix? hdrop)
      obtain ⟨before, after, hcut⟩ := ih htail
      exact ⟨c :: before, after, by rw [hcut]; rfl⟩

theorem cutAt?_eq_none_iff (hpart : part ≠ []) : cutAt? part cs = none ↔ ¬part <:+: cs := by
  refine ⟨fun h hinfix => ?_, fun h => ?_⟩
  · obtain ⟨before, after, hcut⟩ := exists_cutAt? hpart hinfix
    rw [h] at hcut
    cases hcut
  · cases hcut : cutAt? part cs with
    | none => rfl
    | some found =>
      rw [eq_of_cutAt? hcut] at h
      exact absurd ⟨found.1, found.2, by simp⟩ h

/-- A character that is not of the part makes no difference behind a text. -/
theorem cutAt?_concat (hpart : part ≠ []) {c : Char} (hc : c ∉ part) (cs : List Char) :
    cutAt? part (cs ++ [c]) = (cutAt? part cs).map fun (before, after) => (before, after ++ [c]) := by
  cases hcut : cutAt? part cs with
  | some found =>
    obtain ⟨before, after⟩ := found
    obtain ⟨rfl, hnot⟩ := (cutAt?_eq_some_iff hpart).1 hcut
    exact (cutAt?_eq_some_iff hpart).2 ⟨by simp, hnot⟩
  | none =>
    rw [cutAt?_eq_none_iff hpart] at hcut
    refine (cutAt?_eq_none_iff hpart).2 fun h => ?_
    rcases infix_of_append_cons hc h with h | h
    · exact hcut h
    · exact hpart (List.infix_nil.1 h)

/-! ## Markers -/

variable {line within : List Char}

theorem first?_eq_some_iff :
    first? line = some (before, within, after)
      ↔ line = before ++ (opening ++ (within ++ (closing ++ after)))
        ∧ ¬opening <:+: before ++ opening.dropLast ∧ ¬closing <:+: within ++ closing.dropLast := by
  simp only [first?, Option.bind_eq_some_iff, Option.map_eq_some_iff, Prod.exists, Prod.mk.injEq]
  constructor
  · rintro ⟨b, rest, hopening, w, a, hclosing, rfl, rfl, rfl⟩
    obtain ⟨rfl, hb⟩ := (cutAt?_eq_some_iff (by decide)).1 hopening
    obtain ⟨rfl, hw⟩ := (cutAt?_eq_some_iff (by decide)).1 hclosing
    exact ⟨rfl, hb, hw⟩
  · rintro ⟨rfl, hb, hw⟩
    exact ⟨before, _, (cutAt?_eq_some_iff (by decide)).2 ⟨rfl, hb⟩, within, after,
      (cutAt?_eq_some_iff (by decide)).2 ⟨rfl, hw⟩, rfl, rfl, rfl⟩

theorem first?_concat {c : Char} (hc : c ∉ opening) (line : List Char) :
    first? (line ++ [c]) = (first? line).map fun (before, within, after) => (before, within, after ++ [c]) := by
  have hclosing : c ∉ closing := fun h => hc ((by decide : closing ⊆ opening) h)
  rw [first?, first?, cutAt?_concat (by decide) hc]
  cases cutAt? opening line with
  | none => rfl
  | some found =>
    simp only [Option.map_some, Option.bind_some]
    rw [cutAt?_concat (by decide) hclosing, Option.map_map, Option.map_map]
    rfl

theorem stampLine_of_none (label : List Char) (h : first? line = none) : stampLine label line = line := by
  rw [stampLine]
  split
  · rfl
  · next hsome => rw [h] at hsome; cases hsome

theorem stampLine_of_some (label : List Char) (h : first? line = some (before, within, after)) :
    stampLine label line = before ++ (opening ++ (label ++ (closing ++ stampLine label after))) := by
  rw [stampLine]
  split
  · next hnone => rw [h] at hnone; cases hnone
  · next hsome =>
    rw [h] at hsome
    obtain ⟨rfl, rfl, rfl⟩ := by simpa using hsome
    simp

/-- A stamped line ends as it did. -/
theorem getLast?_stampLine (label line : List Char) : (stampLine label line).getLast? = line.getLast? := by
  induction line using stampLine.induct with
  | case1 line h => rw [stampLine_of_none _ h]
  | case2 line before within after h ih =>
    obtain ⟨rfl, -, -⟩ := first?_eq_some_iff.1 h
    rw [stampLine_of_some _ h]
    have hclosing : closing.getLast? = some '_' := rfl
    simp only [List.getLast?_append, ih, hclosing]
    cases after.getLast? <;> rfl

theorem stampLine_concat {c : Char} (hc : c ∉ opening) (label line : List Char) :
    stampLine label (line ++ [c]) = stampLine label line ++ [c] := by
  induction line using stampLine.induct with
  | case1 line h =>
    have hnone : first? (line ++ [c]) = none := by rw [first?_concat hc, h]; rfl
    rw [stampLine_of_none _ h, stampLine_of_none _ hnone]
  | case2 line before within after h ih =>
    have hsome : first? (line ++ [c]) = some (before, within, after ++ [c]) := by
      rw [first?_concat hc, h]
      rfl
    rw [stampLine_of_some _ h, stampLine_of_some _ hsome, ih]
    simp

theorem dropReturn_stampLine (label line : List Char) :
    dropReturn (stampLine label line) = stampLine label (dropReturn line) := by
  by_cases hlast : line.getLast? = some '\r'
  · obtain ⟨front, rfl⟩ := List.getLast?_eq_some_iff.1 hlast
    rw [stampLine_concat (by decide), dropReturn_concat, dropReturn_concat]
  · rw [dropReturn_of_getLast? hlast, dropReturn_of_getLast? (by rwa [getLast?_stampLine])]

/-- Stamping a stamped line stamps the line, if the first stamp does not end before its end. -/
theorem stampLine_stampLine {label : List Char} (h : ¬closing <:+: label ++ closing.dropLast)
    (other line : List Char) : stampLine other (stampLine label line) = stampLine other line := by
  induction line using stampLine.induct with
  | case1 line hnone => rw [stampLine_of_none _ hnone]
  | case2 line before within after hsome ih =>
    obtain ⟨-, hopening, -⟩ := first?_eq_some_iff.1 hsome
    have hagain : first? (stampLine label line) = some (before, label, stampLine label after) :=
      first?_eq_some_iff.2 ⟨stampLine_of_some _ hsome, hopening, h⟩
    rw [stampLine_of_some _ hagain, stampLine_of_some _ hsome, ih]

theorem newline_notMem_stampLine {label line : List Char} (hlabel : '\n' ∉ label) (hline : '\n' ∉ line) :
    '\n' ∉ stampLine label line := by
  have hopening : '\n' ∉ opening := by decide
  have hclosing : '\n' ∉ closing := by decide
  induction line using stampLine.induct with
  | case1 line h => rwa [stampLine_of_none _ h]
  | case2 line before within after h ih =>
    obtain ⟨rfl, -, -⟩ := first?_eq_some_iff.1 h
    rw [stampLine_of_some _ h]
    simp only [List.mem_append, not_or] at hline ⊢
    exact ⟨hline.1, hopening, hlabel, hclosing, ih hline.2.2.2.2⟩

/-! ## Labels -/

theorem label_eq (file : String) (number : Nat) :
    label file number = ':' :: (file.toList ++ ':' :: Nat.toDigits 10 number) := by
  simp [label, Nat.toList_repr]

theorem newline_notMem_label {file : String} (h : '\n' ∉ file.toList) (number : Nat) :
    '\n' ∉ label file number := by
  have hdigits : '\n' ∉ Nat.toDigits 10 number := fun hmem =>
    absurd (Nat.isDigit_of_mem_toDigits (by decide) (by decide) hmem) (by decide)
  simp [label_eq, h, hdigits]

/-- A label ends a marker before its end just if the path in it does. -/
theorem closing_infix_label_iff {file : String} {number : Nat} :
    closing <:+: label file number ++ closing.dropLast ↔ closing <:+: file.toList := by
  have hcolon : ':' ∉ closing := by decide
  have hsplit : label file number ++ closing.dropLast
      = [] ++ ':' :: (file.toList ++ ':' :: (Nat.toDigits 10 number ++ closing.dropLast)) := by
    simp [label_eq]
  rw [hsplit]
  constructor
  · intro h
    rcases infix_of_append_cons hcolon h with h | h
    · exact absurd (List.infix_nil.1 h) (by decide)
    · refine (infix_of_append_cons hcolon h).resolve_right fun h => ?_
      -- Digits and one underscore are too few underscores.
      have hcount := h.sublist.count_le '_'
      have hdigits : (Nat.toDigits 10 number).count '_' = 0 :=
        List.count_eq_zero.2 Nat.underscore_not_in_toDigits
      rw [List.count_append, hdigits] at hcount
      exact absurd hcount (by decide)
  · exact fun h => h.trans ⟨[':'], ':' :: (Nat.toDigits 10 number ++ closing.dropLast), by simp⟩

/-! ## Lines -/

theorem stampLines_ne_nil {ls : List (List Char)} (h : ls ≠ []) (file : String) (number : Nat) :
    stampLines file number ls ≠ [] := by
  cases ls with
  | nil => exact absurd rfl h
  | cons l ls => simp [stampLines]

theorem stampLines_dropReturns (file : String) (number : Nat) (ls : List (List Char)) :
    stampLines file number (dropReturns ls) = dropReturns (stampLines file number ls) := by
  induction ls generalizing number with
  | nil => rfl
  | cons l ls ih =>
    cases ls with
    | nil => rfl
    | cons next rest =>
      rw [dropReturns, stampLines, stampLines, ih, ← dropReturn_stampLine,
        dropReturns_cons _ (stampLines_ne_nil (List.cons_ne_nil next rest) file _)]

theorem stampLines_stampLines {file : String} (h : ¬closing <:+: file.toList) (other : String)
    (number : Nat) (ls : List (List Char)) :
    stampLines other number (stampLines file number ls) = stampLines other number ls := by
  induction ls generalizing number with
  | nil => rfl
  | cons l ls ih =>
    rw [stampLines, stampLines, stampLines, ih,
      stampLine_stampLine (fun hclosing => h (closing_infix_label_iff.1 hclosing))]

theorem newline_notMem_stampLines {file : String} (h : '\n' ∉ file.toList) {number : Nat}
    {ls : List (List Char)} (hls : ∀ l ∈ ls, '\n' ∉ l) : ∀ l ∈ stampLines file number ls, '\n' ∉ l := by
  induction ls generalizing number with
  | nil => simp [stampLines]
  | cons l ls ih =>
    obtain ⟨hl, hls⟩ := List.forall_mem_cons.1 hls
    exact List.forall_mem_cons.2
      ⟨newline_notMem_stampLine (newline_notMem_label h number) hl, ih hls⟩

/-- Stamping keeps apart what lines lose when they lose the carriage return at their ends. -/
theorem dropReturns_stampLines_iff (file : String) (number : Nat) (ls : List (List Char)) :
    dropReturns (stampLines file number ls) = stampLines file number ls ↔ dropReturns ls = ls := by
  induction ls generalizing number with
  | nil => exact Iff.rfl
  | cons l ls ih =>
    cases ls with
    | nil => exact iff_of_true rfl rfl
    | cons next rest =>
      rw [stampLines, dropReturns_cons _ (stampLines_ne_nil (List.cons_ne_nil next rest) file _), dropReturns,
        List.cons.injEq, List.cons.injEq, ih, dropReturn_eq_self_iff, dropReturn_eq_self_iff,
        getLast?_stampLine]

/-! ## Texts -/

/-- The lines of a file as they are stamped. -/
def stampable (text : String) : List (List Char) := splitWhere (· == '\n') (unifyPairs text.toList)

theorem stampable_ne_nil (text : String) : stampable text ≠ [] := splitWhere_ne_nil _ _

theorem newline_notMem_stampable {text : String} : ∀ l ∈ stampable text, '\n' ∉ l := by
  intro l hl hmem
  have hnot := not_of_mem_splitWhere hl hmem
  simp at hnot

theorem toList_join_newline (ls : List (List Char)) :
    (join "\n" (ls.map String.ofList)).toList = Sql.joinLines ls := by
  induction ls with
  | nil => rfl
  | cons l ls ih =>
    cases ls with
    | nil => simp [join, Sql.joinLines]
    | cons next rest =>
      rw [List.map_cons, List.map_cons, join, String.toList_append, String.toList_append, ← List.map_cons, ih]
      simp [Sql.joinLines]

theorem toList_stamp (text file : String) :
    (stamp text file).toList = Sql.joinLines (stampLines file 1 (stampable text)) :=
  toList_join_newline _

/-- The lines of a stamped file are those of the file, stamped. -/
theorem splitWhere_stamp (text : String) {file : String} (h : '\n' ∉ file.toList) :
    splitWhere (· == '\n') (stamp text file).toList = stampLines file 1 (stampable text) := by
  rw [toList_stamp, Sql.splitWhere_joinLines (stampLines_ne_nil (stampable_ne_nil text) file 1)
    (newline_notMem_stampLines h newline_notMem_stampable)]

/-- When a stamped file is stamped again, its lines have lost another carriage return. -/
theorem stampable_stamp (text : String) {file : String} (h : '\n' ∉ file.toList) :
    stampable (stamp text file) = dropReturns (stampLines file 1 (stampable text)) := by
  rw [stampable, splitWhere_unifyPairs, splitWhere_stamp text h]

theorem dropReturns_splitWhere_iff {cs : List Char} :
    dropReturns (splitWhere (· == '\n') cs) = splitWhere (· == '\n') cs ↔ unifyPairs cs = cs := by
  rw [← splitWhere_unifyPairs]
  constructor
  · intro h
    rw [← Sql.joinLines_splitWhere (unifyPairs cs), h, Sql.joinLines_splitWhere]
  · intro h
    rw [h]

section

variable {file other : String}

/-- Where the first path ends no marker too soon, stamping again stamps anew, and what the first stamp left
of pairs of a carriage return and a line feed is unified once more. -/
theorem toList_stamp_stamp (hfile : '\n' ∉ file.toList) (hother : '\n' ∉ other.toList)
    (hclosing : ¬closing <:+: file.toList) (text : String) :
    (stamp (stamp text file) other).toList = unifyPairs (stamp text other).toList := by
  calc (stamp (stamp text file) other).toList
      = Sql.joinLines (dropReturns (stampLines other 1 (stampable text))) := by
        rw [toList_stamp, stampable_stamp text hfile, stampLines_dropReturns,
          stampLines_stampLines hclosing]
    _ = Sql.joinLines (splitWhere (· == '\n') (unifyPairs (stamp text other).toList)) := by
        rw [splitWhere_unifyPairs, splitWhere_stamp text hother]
    _ = unifyPairs (stamp text other).toList := Sql.joinLines_splitWhere _

theorem unifyPairs_stamp_iff (hother : '\n' ∉ other.toList) (text : String) :
    unifyPairs (stamp text other).toList = (stamp text other).toList
      ↔ ¬['\r', '\r', '\n'] <:+: text.toList := by
  rw [← dropReturns_splitWhere_iff, splitWhere_stamp text hother, dropReturns_stampLines_iff, stampable,
    dropReturns_splitWhere_iff, unifyPairs_unifyPairs_iff]

/-- A marker stamped with a path that ends it too soon keeps the rest of the path when it is stamped
again. -/
theorem stampLine_stampLine_ne {label : List Char} (h : closing <:+: label ++ closing.dropLast)
    (other : List Char) :
    stampLine other (stampLine label (opening ++ closing)) ≠ stampLine other (opening ++ closing) := by
  have hmarker : first? (opening ++ closing) = some ([], [], []) := by decide
  have hinfix : closing <:+: label ++ closing :=
    h.trans ((List.prefix_append_right_inj label).2 (List.dropLast_prefix closing)).isInfix
  obtain ⟨within, after, hcut⟩ := exists_cutAt? (by decide) hinfix
  obtain ⟨hlabel, hwithin⟩ := (cutAt?_eq_some_iff (by decide)).1 hcut
  have hstamped : first? (stampLine label (opening ++ closing)) = some ([], within, after) := by
    refine first?_eq_some_iff.2 ⟨?_, by decide, hwithin⟩
    rw [stampLine_of_some _ hmarker, ← hlabel, stampLine_of_none _ rfl]
    simp
  rw [stampLine_of_some _ hstamped, stampLine_of_some _ hmarker]
  intro hsame
  simp only [List.append_cancel_left_eq] at hsame
  have hafter : after = [] := by
    rw [← List.getLast?_eq_none_iff, ← getLast?_stampLine other, hsame, getLast?_stampLine]
    rfl
  rw [hafter, List.append_nil, List.append_cancel_right_eq] at hlabel
  exact hwithin (hlabel ▸ h)

theorem stamp_stamp_ne (hfile : '\n' ∉ file.toList) (hclosing : closing <:+: file.toList) (other : String) :
    stamp (stamp "__LINE__" file) other ≠ stamp "__LINE__" other := by
  have hmarker : stampable "__LINE__" = [opening ++ closing] := rfl
  have hlabel : closing <:+: label file 1 ++ closing.dropLast := closing_infix_label_iff.2 hclosing
  rw [← String.toList_inj.ne, toList_stamp, toList_stamp, stampable_stamp _ hfile, hmarker]
  exact stampLine_stampLine_ne hlabel (label other 1)

end

/-- For paths without line feeds. Stamping again, with any path, is stamping anew for every text without
two carriage returns before a line feed if and only if the path of the first stamp holds no two
underscores in a row. And then it is stamping anew for exactly these texts. -/
theorem stamp_stamp_iff {file other : String} (hfile : '\n' ∉ file.toList) (hother : '\n' ∉ other.toList) :
    ((∀ text : String, ¬['\r', '\r', '\n'] <:+: text.toList →
          stamp (stamp text file) other = stamp text other)
        ↔ ¬closing <:+: file.toList)
      ∧ (¬closing <:+: file.toList → ∀ text : String,
        (stamp (stamp text file) other = stamp text other ↔ ¬['\r', '\r', '\n'] <:+: text.toList)) := by
  have hexact (hclosing : ¬closing <:+: file.toList) (text : String) :
      stamp (stamp text file) other = stamp text other ↔ ¬['\r', '\r', '\n'] <:+: text.toList := by
    rw [← String.toList_inj, toList_stamp_stamp hfile hother hclosing, unifyPairs_stamp_iff hother]
  refine ⟨⟨fun h hclosing => ?_, fun hclosing text => (hexact hclosing text).2⟩, hexact⟩
  have hreturn : '\r' ∉ "__LINE__".toList := by decide
  exact stamp_stamp_ne hfile hclosing other
    (h "__LINE__" fun hreturns => hreturn (hreturns.subset List.mem_cons_self))

/-- A path with single underscores and a name at its end that a marker could begin with, and several
markers on a line. -/
theorem stamp_stamp_iff_renamed :
    '\n' ∉ "a_b/_LINE_.go".toList ∧ '\n' ∉ "c__d.go".toList ∧ ¬closing <:+: "a_b/_LINE_.go".toList
      ∧ ¬['\r', '\r', '\n'] <:+: "(___LINE__ __LINE:x:7___)\r\n__LINE".toList
      ∧ stamp (stamp "(___LINE__ __LINE:x:7___)\r\n__LINE" "a_b/_LINE_.go") "c__d.go"
        = stamp "(___LINE__ __LINE:x:7___)\r\n__LINE" "c__d.go" := by
  have hfile : '\n' ∉ "a_b/_LINE_.go".toList := by decide
  have hother : '\n' ∉ "c__d.go".toList := by decide
  have hclosing : ¬closing <:+: "a_b/_LINE_.go".toList := by simp [closing, List.infix_cons_iff]
  have htext : ¬['\r', '\r', '\n'] <:+: "(___LINE__ __LINE:x:7___)\r\n__LINE".toList := fun hreturns =>
    absurd (hreturns.sublist.count_le '\r') (by decide)
  exact ⟨hfile, hother, hclosing, htext, ((stamp_stamp_iff hfile hother).2 hclosing _).2 htext⟩

/-- Stamping a second time with the same path changes a file whose path holds two underscores. -/
theorem not_stamp_stamp_underscores :
    ¬∀ text file : String, '\n' ∉ file.toList → '\r' ∉ file.toList →
      stamp (stamp text file) file = stamp text file := fun h =>
  stamp_stamp_ne (by decide : '\n' ∉ "a__b.go".toList) ⟨['a'], "b.go".toList, rfl⟩ "a__b.go"
    (h "__LINE__" "a__b.go" (by decide) (by decide))

end GoScaffold.Go.Marker
