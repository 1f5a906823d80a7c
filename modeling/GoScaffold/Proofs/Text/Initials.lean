import Mathlib.Data.List.TakeWhile
import GoScaffold.Proofs.Text.Snake

set_option autoImplicit false

/-! # Initials

The initial of each word of a name is put in upper case, and the upper case of a few characters has a
mark behind the letter that is no letter itself: `ǰ` becomes `J` and a caron. A name with such an
initial falls into other words when it is put in upper camel case again, and no other name changes then
(`upperCamel_upperCamel_iff`), as every word begins with a letter or digit that is its own upper case. -/

namespace GoScaffold.Text

open Alphanumeric

/-! ## Where runs lead -/

/-- The blocks that a code point beyond ASCII is looked up in. -/
def Alphanumeric.blocksAt (n : Nat) : List (Nat × Nat) :=
  if n < 0x1000 then lowBlocks else if n < 0x10000 then middleBlocks else highBlocks

/-- Blocks end before the code points that are looked up elsewhere, so a code point behind one of a
block is in the block with it. -/
theorem isAlphanumeric_of_block {c : Char} {n : Nat} {b : Nat × Nat} (hb : b ∈ blocksAt n)
    (hn : 0x80 ≤ n) (hfirst : b.1 ≤ n) (hc : n ≤ c.toNat) (hlast : c.toNat ≤ b.2) :
    isAlphanumeric c = true := by
  have hlow : ∀ b ∈ lowBlocks, b.2 < 0x1000 := by decide +kernel
  have hmiddle : ∀ b ∈ middleBlocks, b.2 < 0x10000 := by decide +kernel
  have hin {blocks : List (Nat × Nat)} (hb : b ∈ blocks) : inBlocks blocks c.toNat = true := by
    refine List.any_eq_true.2 ⟨b, hb, ?_⟩
    rw [Bool.and_eq_true, decide_eq_true_eq, decide_eq_true_eq]
    omega
  rw [isAlphanumeric, if_neg (by omega)]
  unfold blocksAt at hb
  split at hb
  · have hend := hlow b hb
    rw [if_pos (by omega)]
    exact hin hb
  · split at hb
    · have hend := hmiddle b hb
      rw [if_neg (by omega), if_pos (by omega)]
      exact hin hb
    · rw [if_neg (by omega), if_neg (by omega)]
      exact hin hb

namespace CaseRun

/-- The code points of a run. -/
def members (r : CaseRun) : List Nat :=
  (List.range ((r.last - r.first) / r.step + 1)).map (r.first + r.step * ·)

theorem mem_members {r : CaseRun} {n : Nat} (h : r.has n = true) : n ∈ r.members := by
  simp only [has, Bool.and_eq_true, decide_eq_true_eq] at h
  obtain ⟨⟨hfirst, hlast⟩, hstep⟩ := h
  have hdivided : (n - r.first) / r.step ≤ (r.last - r.first) / r.step :=
    Nat.div_le_div_right (by omega)
  have hwhole := Nat.div_add_mod (n - r.first) r.step
  exact List.mem_map.2 ⟨(n - r.first) / r.step, List.mem_range.2 (by omega), by omega⟩

/-- Whether a run leads to letters and digits only: into one block of them, or code point by code
point. -/
def staysAlphanumeric (r : CaseRun) : Bool :=
  (Nat.ble 0x80 r.target
      && (blocksAt r.target).any fun b =>
        Nat.ble b.1 r.target && Nat.ble (r.target + (r.last - r.first)) b.2)
    || r.members.all fun n => isAlphanumeric (Char.ofNat (r.image n))

/-- Whether a run leads to a code point of another. -/
def leadsInto (r q : CaseRun) : Bool :=
  Nat.ble q.first (r.target + (r.last - r.first)) && Nat.ble r.target q.last
    && r.members.any fun n => q.has (r.image n)

theorem leadsInto_of_has {r q : CaseRun} {n : Nat} (hn : r.has n = true)
    (hq : q.has (r.image n) = true) : r.leadsInto q = true := by
  have hmember : (r.members.any fun n => q.has (r.image n)) = true :=
    List.any_eq_true.2 ⟨n, mem_members hn, hq⟩
  simp only [has, Bool.and_eq_true, decide_eq_true_eq] at hn hq
  unfold image at hq
  rw [leadsInto, hmember, Bool.and_true, Bool.and_eq_true, Nat.ble_eq, Nat.ble_eq]
  omega

end CaseRun

/-! ## Upper case of runs -/

/-- The code points with an upper case beyond ASCII. -/
def upperDomain : List CaseRun := upperExpansions.map (fun e => ⟨e.1, e.1, 1, e.1⟩) ++ upperRuns

/-- What the tables of upper case tell, entry by entry: runs lead to letters and digits that have no upper
case, and the expansions begin with one. -/
structure UpperTables : Prop where
  staysAlphanumeric : ∀ r ∈ upperRuns, r.staysAlphanumeric = true
  leadsOut : (upperRuns.all fun r => upperDomain.all fun q => !r.leadsInto q) = true
  notLower : ∀ r ∈ upperRuns, 122 < r.target
    ∨ ∀ n ∈ r.members, (Char.ofNat (r.image n)).isLower = false
  head : ∀ e ∈ upperExpansions,
    (e.2.map Char.ofNat).head?.any (fun d => isAlphanumeric d && toUpperCase d == [d]) = true

theorem upperTables : UpperTables where
  staysAlphanumeric := by decide +kernel
  leadsOut := by decide +kernel
  notLower := by decide +kernel
  head := by decide +kernel

/-- No run leads to a code point that has an upper case itself. -/
theorem not_leadsInto_upperDomain {r q : CaseRun} (hr : r ∈ upperRuns) (hq : q ∈ upperDomain) :
    r.leadsInto q = false := by
  have hnone := List.all_eq_true.1 (List.all_eq_true.1 upperTables.leadsOut r hr) q hq
  rwa [Bool.not_eq_true'] at hnone

section

variable {r : CaseRun} (hr : r ∈ upperRuns) {n : Nat} (hn : r.has n = true)

include hr hn

theorem toNat_image : (Char.ofNat (r.image n)).toNat = r.image n :=
  toNat_ofNat_of_isNameCode (CaseRun.isNameCode_image (staysName_of_mem_upperRuns r hr) hn)

theorem isAlphanumeric_image : isAlphanumeric (Char.ofNat (r.image n)) = true := by
  have hcode := toNat_image hr hn
  rcases Bool.or_eq_true_iff.1 (upperTables.staysAlphanumeric r hr) with hblock | hmembers
  · rw [Bool.and_eq_true, Nat.ble_eq] at hblock
    obtain ⟨b, hb, hends⟩ := List.any_eq_true.1 hblock.2
    rw [Bool.and_eq_true, Nat.ble_eq, Nat.ble_eq] at hends
    simp only [CaseRun.has, Bool.and_eq_true, decide_eq_true_eq] at hn
    unfold CaseRun.image at hcode ⊢
    exact isAlphanumeric_of_block hb hblock.1 hends.1 (by omega) (by omega)
  · exact List.all_eq_true.1 hmembers n (CaseRun.mem_members hn)

/-- What a run leads to is its own upper case. -/
theorem toUpperCase_image : toUpperCase (Char.ofNat (r.image n)) = [Char.ofNat (r.image n)] := by
  have hcode := toNat_image hr hn
  have hnone {q : CaseRun} (hq : q ∈ upperDomain) : q.has (r.image n) ≠ true := by
    intro hhas
    have hleads := CaseRun.leadsInto_of_has hn hhas
    rw [not_leadsInto_upperDomain hr hq] at hleads
    cases hleads
  unfold toUpperCase
  split
  · have hkept : (Char.ofNat (r.image n)).isLower = false := by
      rcases upperTables.notLower r hr with hbeyond | hmembers
      · rw [Bool.eq_false_iff, Ne, isLower_iff, hcode, CaseRun.image]
        omega
      · exact hmembers n (CaseRun.mem_members hn)
    rw [toUpper_of_not_isLower hkept]
  · rcases mapCase_cases upperExpansions upperRuns (Char.ofNat (r.image n)) with
      ⟨e, he, hsame, -⟩ | ⟨q, hq, hhas, -⟩ | hkept
    · rw [hcode] at hsame
      refine absurd ?_ (hnone (List.mem_append_left _ (List.mem_map.2 ⟨e, he, rfl⟩)))
      simp [CaseRun.has, hsame]
    · rw [hcode] at hhas
      exact absurd hhas (hnone (List.mem_append_right _ hq))
    · exact hkept

end

/-! ## Upper case of letters and digits -/

theorem isAlphanumeric_toUpper {c : Char} (hascii : c.toNat < 0x80) (hc : isAlphanumeric c = true) :
    c.toUpper.toNat < 0x80 ∧ isAlphanumeric c.toUpper = true := by
  have hupper := Naming.isAsciiAlphanum_toUpper (c := c)
  rw [isAlphanumeric_of_ascii hascii] at hc
  rw [Naming.isAsciiAlphanum, Naming.isAsciiAlphanum, Bool.and_eq_true, Bool.and_eq_true,
    decide_eq_true_eq, decide_eq_true_eq] at hupper
  obtain ⟨hlow, halphanum⟩ := hupper ⟨hascii, hc⟩
  rw [isAlphanumeric_of_ascii hlow]
  exact ⟨hlow, halphanum⟩

/-- The upper case of a letter or digit begins with a letter or digit that is its own upper case. -/
theorem exists_head_toUpperCase {c : Char} (hc : isAlphanumeric c = true) :
    ∃ d rest, toUpperCase c = d :: rest ∧ isAlphanumeric d = true ∧ toUpperCase d = [d] := by
  by_cases hascii : c.toNat < 0x80
  · obtain ⟨hlow, halphanumeric⟩ := isAlphanumeric_toUpper hascii hc
    refine ⟨c.toUpper, [], Naming.toUpperCase_of_ascii hascii, halphanumeric, ?_⟩
    rw [Naming.toUpperCase_of_ascii hlow, toUpper_of_not_isLower (Naming.isLower_toUpper c)]
  · have hmapped : toUpperCase c = mapCase upperExpansions upperRuns c := if_neg hascii
    rw [hmapped]
    rcases mapCase_cases upperExpansions upperRuns c with
      ⟨e, he, -, hmap⟩ | ⟨r, hr, hhas, hmap⟩ | hmap
    · obtain ⟨d, hd, hhead⟩ := (Option.any_eq_true _ _).1 (upperTables.head e he)
      obtain ⟨rest, hrest⟩ := List.head?_eq_some_iff.1 hd
      rw [Bool.and_eq_true, beq_iff_eq] at hhead
      exact ⟨d, rest, hmap.trans hrest, hhead⟩
    · exact ⟨_, [], hmap, isAlphanumeric_image hr hhas, toUpperCase_image hr hhas⟩
    · exact ⟨c, [], hmap, hc, hmapped.trans hmap⟩

/-- The letters whose upper case has marks behind it that are no letters: `ǰ`, `ẖ`, `ẗ`, `ẘ`, `ẙ` and
Greek letters with marks that no capital has. -/
def loose : List Nat :=
  [0x1F0, 0x390, 0x3B0, 0x1E96, 0x1E97, 0x1E98, 0x1E99, 0x1F50, 0x1F52, 0x1F54, 0x1F56, 0x1FB6, 0x1FB7,
    0x1FC6, 0x1FC7, 0x1FD2, 0x1FD3, 0x1FD6, 0x1FD7, 0x1FE2, 0x1FE3, 0x1FE4, 0x1FE6, 0x1FE7, 0x1FF6, 0x1FF7]

/-- All other letters and digits have an upper case of letters and digits. -/
theorem notMem_loose_iff {c : Char} (hc : isAlphanumeric c = true) :
    c.toNat ∉ loose ↔ ∀ d ∈ toUpperCase c, isAlphanumeric d = true := by
  have hloose : ∀ n ∈ loose, (toUpperCase (Char.ofNat n)).all isAlphanumeric = false := by
    decide +kernel
  have hexpansions : ∀ e ∈ upperExpansions,
      e.1 ∈ loose ∨ (e.2.map Char.ofNat).all isAlphanumeric = true := by decide +kernel
  rw [← List.all_eq_true]
  constructor
  · intro hnot
    by_cases hascii : c.toNat < 0x80
    · rw [Naming.toUpperCase_of_ascii hascii, List.all_cons, (isAlphanumeric_toUpper hascii hc).2]
      rfl
    · rw [toUpperCase, if_neg hascii]
      rcases mapCase_cases upperExpansions upperRuns c with
        ⟨e, he, hcode, hmap⟩ | ⟨r, hr, hhas, hmap⟩ | hmap
      · rw [hmap]
        exact (hexpansions e he).resolve_left (hcode ▸ hnot)
      · rw [hmap, List.all_cons, isAlphanumeric_image hr hhas]
        rfl
      · rw [hmap, List.all_cons, hc]
        rfl
  · intro hall hmem
    have hnone := hloose c.toNat hmem
    rw [Char.ofNat_toNat, hall] at hnone
    cases hnone

end GoScaffold.Text

namespace GoScaffold.Naming

open Text

/-! ## Upper camel names again -/

/-- An upper camel name begins with a letter or digit that is its own upper case. -/
theorem head_upperCamelChars {cs : List Char} {d : Char} (h : d ∈ (upperCamelChars cs).head?) :
    isAlphanumeric d = true ∧ toUpperCase d = [d] := by
  rw [Option.mem_def, upperCamelChars, List.head?_flatMap] at h
  obtain ⟨w, hw, hd⟩ := List.exists_of_findSome?_eq_some h
  cases w with
  | nil => cases hd
  | cons c w =>
    have hc := not_of_mem_splitWhere hw (List.mem_cons_self (a := c))
    rw [Bool.not_eq_false'] at hc
    obtain ⟨e, rest, hupper, hhead⟩ := exists_head_toUpperCase hc
    rw [capitalize, hupper] at hd
    obtain rfl : e = d := Option.some.inj hd
    exact hhead

/-- A name that begins with its own upper case is in upper camel case if and only if it is one word. -/
theorem upperCamelChars_eq_self_iff {cs : List Char} (hhead : ∀ d ∈ cs.head?, toUpperCase d = [d]) :
    upperCamelChars cs = cs ↔ ∀ c ∈ cs, isAlphanumeric c = true := by
  have hkept {w rest : List Char} (h : cs = w ++ rest) : capitalize w = w := by
    cases w with
    | nil => rfl
    | cons d w => rw [capitalize, hhead d (by rw [h]; rfl), List.singleton_append]
  constructor
  · intro hsame
    cases hrest : cs.dropWhile isAlphanumeric with
    | nil => exact List.dropWhile_eq_nil_iff.1 hrest
    | cons x rest =>
      -- What stands behind the first cut would begin with the cut when it is put in upper camel case.
      have hx : isAlphanumeric x = false := by
        have hfirst := List.head?_dropWhile_not isAlphanumeric cs
        rw [hrest] at hfirst
        exact hfirst
      have hcut : cs = cs.takeWhile isAlphanumeric ++ x :: rest := by
        rw [← hrest, List.takeWhile_append_dropWhile]
      have hfront : ∀ c ∈ cs.takeWhile isAlphanumeric, isAlphanumeric c = true :=
        List.all_eq_true.1 List.all_takeWhile
      have hwhole := hkept hcut
      generalize cs.takeWhile isAlphanumeric = w at hcut hfront hwhole
      rw [hcut, upperCamelChars_append_cons hx, upperCamelChars_of_alphanumeric hfront, hwhole] at hsame
      have hbegins := List.append_cancel_left hsame
      have hfirst : x ∈ (upperCamelChars rest).head? := by
        rw [hbegins]
        rfl
      rw [(head_upperCamelChars hfirst).1] at hx
      cases hx
  · intro hall
    rw [upperCamelChars_of_alphanumeric hall]
    exact hkept (List.append_nil cs).symm

/-- A name in upper camel case stays as it is when it is put in upper camel case again, if and only if
none of the words it was made of begins with a letter whose upper case is no word. -/
theorem upperCamel_upperCamel_iff (s : String) :
    upperCamel (upperCamel s) = upperCamel s
      ↔ ∀ w ∈ splitWhere (fun c => !isAlphanumeric c) s.toList, ∀ c ∈ w.head?, c.toNat ∉ loose := by
  have hword {w : List Char} (hw : w ∈ splitWhere (fun c => !isAlphanumeric c) s.toList) :
      (∀ c ∈ capitalize w, isAlphanumeric c = true) ↔ ∀ c ∈ w.head?, c.toNat ∉ loose := by
    cases w with
    | nil => simp [capitalize]
    | cons c w =>
      have hletters : ∀ d ∈ c :: w, isAlphanumeric d = true := by
        intro d hd
        have hcut := not_of_mem_splitWhere hw hd
        rwa [Bool.not_eq_false'] at hcut
      obtain ⟨hc, hrest⟩ := List.forall_mem_cons.1 hletters
      rw [capitalize, List.forall_mem_append, ← notMem_loose_iff hc, and_iff_left hrest]
      simp
  rw [← String.toList_inj]
  simp only [upperCamel, toList_onChars]
  rw [upperCamelChars_eq_self_iff fun d hd => (head_upperCamelChars hd).2]
  constructor
  · intro hall w hw
    rw [← hword hw]
    exact fun c hc => hall c (List.mem_flatMap.2 ⟨w, hw, hc⟩)
  · intro hall c hc
    obtain ⟨w, hw, hc⟩ := List.mem_flatMap.1 hc
    exact (hword hw).2 (hall w hw) c hc

/-- The caron of `J̌` ends a word that it did not end before. -/
theorem not_upperCamel_upperCamel_caron : ¬∀ s, upperCamel (upperCamel s) = upperCamel s := by
  intro h
  exact absurd (h "ǰa") (by decide +kernel)

end GoScaffold.Naming
