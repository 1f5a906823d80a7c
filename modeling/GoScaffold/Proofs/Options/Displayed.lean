import GoScaffold.Options.LogicalDelete
import GoScaffold.Proofs.Text.Names
import GoScaffold.Proofs.Text.Trimming

set_option autoImplicit false

/-! # Settings as they are displayed

A logical delete is read from both sides of an equals sign, each without the white space around it and
without the quotes around that. It is displayed as the two sides alone. What stood right inside the
quotes may be white space, and then it stands at an end of what is displayed, where it is dropped. So a
setting that was read comes back from what it is displayed as if and only if neither side begins or ends
with white space (`parse_display_iff`). -/

namespace GoScaffold.LogicalDelete

open Text

/-! ## Sides -/

/-- No white space stands at an end of the text. -/
def HasNoMargin (s : String) : Prop :=
  (∀ c ∈ s.toList.head?, isBlank c = false) ∧ ∀ c ∈ s.toList.getLast?, isBlank c = false

/-- A side of a setting as it is read: without the white space around it, and without the quotes around
that. -/
def side (quote : Char → Bool) (cs : List Char) : List Char := trimWhere quote (trimBlank cs)

/-- A side that was read is read as itself just if no white space stands at its ends. -/
theorem side_eq_self_iff {quote : Char → Bool} {cs : List Char} {s : String}
    (h : s.toList = side quote cs) : side quote s.toList = s.toList ↔ HasNoMargin s := by
  have hquotes : trimWhere quote s.toList = s.toList := by
    rw [h]
    exact trimWhere_trimWhere quote (trimBlank cs)
  calc side quote s.toList = s.toList
      ↔ trimBlank s.toList = s.toList ∧ trimWhere quote s.toList = s.toList :=
        comp_eq_self_iff (trimWhere_sublist _) (trimWhere_sublist _)
    _ ↔ trimBlank s.toList = s.toList := and_iff_left hquotes
    _ ↔ HasNoMargin s := trimWhere_eq_self_iff

/-! ## Reading -/

theorem parse_of_splitOnce {text : String} {before after : List Char}
    (h : splitOnce '=' text.toList = some (before, after)) :
    parse text
      = if (side (· == '`') before).isEmpty || (side isQuote after).isEmpty then .error (.emptySide text)
        else .ok ⟨String.ofList (side (· == '`') before), String.ofList (side isQuote after)⟩ := by
  rw [parse, h]
  rfl

/-- A setting is read from an equals sign between two sides that hold more than is dropped. -/
theorem parse_eq_ok {text : String} {d : LogicalDelete} :
    parse text = .ok d
      ↔ ∃ before after, splitOnce '=' text.toList = some (before, after)
        ∧ d.column.toList = side (· == '`') before ∧ d.value.toList = side isQuote after
        ∧ d.column.toList ≠ [] ∧ d.value.toList ≠ [] := by
  constructor
  · intro h
    cases hsplit : splitOnce '=' text.toList with
    | none =>
      rw [parse, hsplit] at h
      cases h
    | some parts =>
      obtain ⟨before, after⟩ := parts
      rw [parse_of_splitOnce hsplit] at h
      split at h
      · cases h
      · next hsides =>
        obtain rfl := Except.ok.inj h
        simp only [Bool.or_eq_true, List.isEmpty_iff, not_or] at hsides
        exact ⟨before, after, rfl, String.toList_ofList, String.toList_ofList,
          by simpa using hsides.1, by simpa using hsides.2⟩
  · rintro ⟨before, after, hsplit, hcolumn, hvalue, hne, hne'⟩
    rw [parse_of_splitOnce hsplit, ← hcolumn, ← hvalue, if_neg (by simp [hne, hne']),
      String.ofList_toList, String.ofList_toList]

/-- The column of a setting that was read holds no equals sign. -/
theorem equals_notMem_column {text : String} {d : LogicalDelete} (h : parse text = .ok d) :
    '=' ∉ d.column.toList := by
  obtain ⟨before, after, hsplit, hcolumn, -⟩ := parse_eq_ok.1 h
  have hsublist : (side (· == '`') before).Sublist before :=
    (trimWhere_sublist ..).trans (trimWhere_sublist ..)
  rw [hcolumn]
  exact fun hmem => (splitOnce_eq_some hsplit).2 (hsublist.subset hmem)

/-! ## Reading what is displayed -/

theorem toList_display (d : LogicalDelete) :
    d.display.toList = d.column.toList ++ '=' :: d.value.toList := by
  simp [display]

/-- A setting that was read is read again from what it is displayed as if and only if no white space
stands at an end of its column or of its value. -/
theorem parse_display_iff {text : String} {d : LogicalDelete} (h : parse text = .ok d) :
    parse d.display = .ok d ↔ HasNoMargin d.column ∧ HasNoMargin d.value := by
  obtain ⟨before, after, -, hcolumn, hvalue, hne, hne'⟩ := parse_eq_ok.1 h
  have hsplit : splitOnce '=' d.display.toList = some (d.column.toList, d.value.toList) := by
    rw [toList_display]
    exact splitOnce_append (equals_notMem_column h) d.value.toList
  rw [← side_eq_self_iff hcolumn, ← side_eq_self_iff hvalue]
  constructor
  · intro hagain
    obtain ⟨before', after', hsplit', hcolumn', hvalue', -⟩ := parse_eq_ok.1 hagain
    obtain ⟨rfl, rfl⟩ := Prod.mk.inj (Option.some.inj (hsplit.symm.trans hsplit'))
    exact ⟨hcolumn'.symm, hvalue'.symm⟩
  · rintro ⟨hsame, hsame'⟩
    exact parse_eq_ok.2 ⟨_, _, hsplit, hsame.symm, hsame'.symm, hne, hne'⟩

/-- Quotes in several runs, white space between them and inside both sides, and a second equals sign. -/
theorem parse_display_iff_nestedQuotes :
    parse " ``row state``\t= '\"is = 'gone\"' " = .ok ⟨"row state", "is = 'gone"⟩
      ∧ (parse "row state=is = 'gone" = .ok ⟨"row state", "is = 'gone"⟩
        ↔ HasNoMargin "row state" ∧ HasNoMargin "is = 'gone") := by
  have hread : parse " ``row state``\t= '\"is = 'gone\"' " = .ok ⟨"row state", "is = 'gone"⟩ := by
    decide
  exact ⟨hread, parse_display_iff hread⟩

/-- A column with white space right inside its backticks comes back as another one. -/
theorem not_parse_display_spacedColumn :
    ¬∀ (text : String) (d : LogicalDelete), parse text = .ok d → parse d.display = .ok d := by
  intro h
  have hread : parse "` a `=1" = .ok ⟨" a ", "1"⟩ := by decide
  have hmargin := ((parse_display_iff hread).1 (h _ _ hread)).1.1 ' '
  exact absurd (hmargin rfl) (by decide)

end GoScaffold.LogicalDelete
