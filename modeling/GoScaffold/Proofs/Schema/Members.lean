import GoScaffold.Proofs.Schema.Accounted
import GoScaffold.Proofs.Text.Trimming

set_option autoImplicit false

/-! # Members that name columns

A name is compared with those of the columns without the white space and the backticks around it. The
members of a key are names without their quotes already, and what stood between the quotes may begin
and end with white space and backticks of its own. So of the members that are spelled like a column,
those that nothing is taken off are found there, and no others (`columnIndex?_eq_some_iff`). -/

namespace GoScaffold

open Text

/-! ## Names as they are compared -/

/-- What a name is compared by: the name without the white space around it, and without the backticks
around that. -/
def bareName (name : List Char) : List Char := trimWhere (· == '`') (trimBlank name)

/-- Neither white space nor a backtick stands at an end of the name. -/
def IsBare (name : String) : Prop :=
  ∀ c, c ∈ name.toList.head? ∨ c ∈ name.toList.getLast? → isBlank c = false ∧ c ≠ '`'

theorem bareName_eq_self_iff {name : String} : bareName name.toList = name.toList ↔ IsBare name := by
  rw [bareName, trimBlank, comp_eq_self_iff (trimWhere_sublist _) (trimWhere_sublist _),
    trimWhere_eq_self_iff, trimWhere_eq_self_iff]
  simp only [beq_eq_false_iff_ne, IsBare]
  constructor
  · rintro ⟨⟨hblank, hblank'⟩, hquote, hquote'⟩ c (hc | hc)
    · exact ⟨hblank c hc, hquote c hc⟩
    · exact ⟨hblank' c hc, hquote' c hc⟩
  · intro h
    exact ⟨⟨fun c hc => (h c (Or.inl hc)).1, fun c hc => (h c (Or.inr hc)).1⟩,
      fun c hc => (h c (Or.inl hc)).2, fun c hc => (h c (Or.inr hc)).2⟩

theorem bareName_sublist (name : List Char) : (bareName name).Sublist name :=
  (trimWhere_sublist ..).trans (trimWhere_sublist ..)

/-! ## Looking up -/

theorem Column.isNamed_iff {c : Column} {name : String} :
    c.isNamed name = true ↔ raise c.name.toList = raise (bareName name.toList) := by
  rw [isNamed, sameLetters_iff, toList_onChars, bareName]

/-- A bare name is compared as it is. -/
theorem IsBare.isNamed {name : String} (h : IsBare name) (c : Column) :
    c.isNamed name = sameLetters c.name name := by
  rw [Bool.eq_iff_iff, Column.isNamed_iff, sameLetters_iff, bareName_eq_self_iff.2 h]

/-- A column that is spelled like a name has it only if the name is bare. -/
theorem isBare_of_isNamed {c : Column} {name : String} (hspelled : sameLetters c.name name = true)
    (hnamed : c.isNamed name = true) : IsBare name := by
  have hletters : raise name.toList = raise (bareName name.toList) :=
    (sameLetters_iff.1 hspelled).symm.trans (Column.isNamed_iff.1 hnamed)
  have hlength : name.toList.length = (bareName name.toList).length := by
    simpa using congrArg List.length hletters
  exact bareName_eq_self_iff.1 ((bareName_sublist _).eq_of_length hlength.symm)

/-- A name that the column at a place is the first to be spelled like is found at that place if and only
if it is bare. -/
theorem Table.columnIndex?_eq_some_iff {t : Table} {name : String} {place : Nat}
    (h : t.columns.findIdx? (fun c => sameLetters c.name name) = some place) :
    t.columnIndex? name = some place ↔ IsBare name := by
  constructor
  · intro hfound
    obtain ⟨_, hspelled, -⟩ := List.findIdx?_eq_some_iff_getElem.1 h
    obtain ⟨_, hnamed, -⟩ := List.findIdx?_eq_some_iff_getElem.1 hfound
    exact isBare_of_isNamed hspelled hnamed
  · intro hbare
    rw [columnIndex?, ← h]
    exact congrArg (List.findIdx? · t.columns) (funext hbare.isNamed)

theorem KeyDeclaration.columnIndex?_of_mem_warnings {key : KeyDeclaration} {t : Table} {kind : KeyKind}
    {name : String} (h : .unknownKeyColumn t.name kind name ∈ key.warnings t) :
    t.columnIndex? name = none := by
  rw [warnings, List.mem_append] at h
  rcases h with h | h
  · obtain ⟨member, hmember, heq⟩ := List.mem_map.1 h
    obtain ⟨-, -, rfl⟩ := Warning.unknownKeyColumn.inj heq
    simpa [unknown] using (List.mem_filter.1 hmember).2
  · split at h <;> simp at h

/-- Only names that name no column are warned of. -/
theorem Table.Accounts.columnIndex?_of_mem {t : Table} {keys : List KeyDeclaration}
    {warnings : List Warning} (h : t.Accounts keys warnings) {kind : KeyKind} {name : String}
    (hmem : .unknownKeyColumn t.name kind name ∈ warnings) : t.columnIndex? name = none := by
  rw [h.warnings, List.mem_append] at hmem
  rcases hmem with hmem | hmem
  · obtain ⟨key, -, hkey⟩ := List.mem_flatMap.1 hmem
    exact key.columnIndex?_of_mem_warnings hkey
  · obtain ⟨group, -, heq⟩ := List.mem_map.1 hmem
    exact absurd heq (by simp)

/-! ## Declarations -/

/-- A member that is spelled like a column is found at the first such column, and not warned of, if and
only if neither white space nor a backtick stands at an end of it. -/
theorem member_found_iff {s : String} {t : Table} {warnings : List Warning}
    (h : readTable s = .ok (some (t, warnings))) :
    ∃ tree keys, declarationTree s.toList = .ok (some tree)
      ∧ DeclaredKeys s.toList tree.children keys ∧ t.Accounts keys warnings
      ∧ ∀ key ∈ keys, ∀ member ∈ key.members, ∀ place,
        t.columns.findIdx? (fun c => sameLetters c.name member) = some place →
          (t.columnIndex? member = some place
              ∧ .unknownKeyColumn t.name key.kind member ∉ warnings ↔ IsBare member) := by
  obtain ⟨tree, keys, htree, hkeys, houtline, rfl, rfl⟩ := exists_outline h
  have haccounts := houtline ▸ Outline.accounts_fill (Outline.ofTree tree) s.toList
  refine ⟨tree, keys, htree, hkeys, haccounts, fun key _ member _ place hplace => ?_⟩
  rw [Table.columnIndex?_eq_some_iff hplace]
  refine ⟨And.left, fun hbare => ⟨hbare, fun hmem => ?_⟩⟩
  have hfound := (Table.columnIndex?_eq_some_iff hplace).2 hbare
  rw [haccounts.columnIndex?_of_mem hmem] at hfound
  exact absurd hfound (by simp)

/-- Columns and members with white space and backticks between their quotes, at their ends and inside. -/
def padded : String :=
  "CREATE TABLE t (a INT, ` a` INT, ` b` INT, `c``d e` INT, KEY (` a`, ` b`, `C``D e`, A))"

/-- The table of that declaration. -/
def paddedTable : Table where
  name := "t"
  columns := [{ name := "a", declaredType := "INT" }, { name := " a", declaredType := "INT" },
    { name := " b", declaredType := "INT" }, { name := "c`d e", declaredType := "INT" }]
  indexKeys := [⟨[0, 3, 0]⟩]

/-- Its warnings. -/
def paddedWarnings : List Warning := [.unknownKeyColumn "t" .index " b"]

theorem readTable_padded : readTable padded = .ok (some (paddedTable, paddedWarnings)) :=
  eq_ok_of_toOption (by decide +kernel)

theorem member_found_iff_padded :
    readTable padded = .ok (some (paddedTable, paddedWarnings))
      ∧ ∃ tree keys, declarationTree padded.toList = .ok (some tree)
        ∧ DeclaredKeys padded.toList tree.children keys ∧ paddedTable.Accounts keys paddedWarnings
        ∧ ∀ key ∈ keys, ∀ member ∈ key.members, ∀ place,
          paddedTable.columns.findIdx? (fun c => sameLetters c.name member) = some place →
            (paddedTable.columnIndex? member = some place
                ∧ .unknownKeyColumn paddedTable.name key.kind member ∉ paddedWarnings
              ↔ IsBare member) :=
  ⟨readTable_padded, member_found_iff readTable_padded⟩

/-- One member of its key is spelled like a column and found at another one, and one is spelled like a
column and warned of. -/
theorem not_member_found_padded :
    ∃ tree keys, declarationTree padded.toList = .ok (some tree)
      ∧ DeclaredKeys padded.toList tree.children keys
      ∧ ∃ key ∈ keys,
        (∃ member ∈ key.members,
          paddedTable.columns.findIdx? (fun c => sameLetters c.name member) = some 1
            ∧ paddedTable.columnIndex? member = some 0)
        ∧ ∃ member ∈ key.members,
          paddedTable.columns.findIdx? (fun c => sameLetters c.name member) = some 2
            ∧ .unknownKeyColumn paddedTable.name key.kind member ∈ paddedWarnings := by
  obtain ⟨tree, keys, htree, hkeys, houtline, -, -⟩ := exists_outline readTable_padded
  have heval : ((declarationTree padded.toList).toOption.bind id).map (fun tree =>
      (Outline.ofTree tree).keys.map (KeyDeclaration.ofOutline padded.toList))
        = some [⟨.index, [" a", " b", "C`D e", "A"]⟩] := by decide +kernel
  rw [htree] at heval
  obtain rfl : keys = [⟨.index, [" a", " b", "C`D e", "A"]⟩] := by
    rw [← houtline]
    exact Option.some.inj heval
  exact ⟨tree, _, htree, hkeys, _, List.mem_singleton_self _, ⟨" a", by decide +kernel⟩, " b",
    by decide +kernel⟩

end GoScaffold
