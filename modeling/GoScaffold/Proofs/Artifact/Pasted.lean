import Mathlib.Data.List.Forall2
import GoScaffold.Proofs.Artifact.Endpoints
import GoScaffold.Proofs.Artifact.Fields
import GoScaffold.Proofs.Go.Formats

set_option autoImplicit false

/-! # Names as they are pasted

The names made from those of tables and columns stand as they are in tags, in keys of JSON texts, in
the map of handlers, in arguments of the shell and in formats. They hold none of the marks that would
end or change what they stand in, so each of these is read as it is written (`pasted`). -/

namespace GoScaffold

open Go Text

/-! ## Marks -/

/-- The marks that end a literal, a tag or an argument, begin an escape or a verb, or break a line. -/
def pasteMarks : List Char := ['"', '\'', '`', '\\', '%', '\n', '\r']

/-- Whether a character is none of the marks. -/
def isPlain (ch : Char) : Bool := !pasteMarks.contains ch

theorem isPlain_of_isNameChar {ch : Char} (h : isNameChar ch = true) : isPlain ch = true := by
  have hmarks : ∀ mark ∈ pasteMarks, isNameChar mark = false := by decide
  rw [isPlain, Bool.not_eq_true', List.contains_eq_mem, decide_eq_false_iff_not]
  intro hmem
  rw [hmarks ch hmem] at h
  cases h

theorem ne_of_isPlain {ch d : Char} (h : isPlain ch = true) (hmark : d ∈ pasteMarks) : ch ≠ d := by
  rintro rfl
  rw [isPlain, Bool.not_eq_true', List.contains_eq_mem, decide_eq_false_iff_not] at h
  exact h hmark

theorem isMarked_of_isPlain {ch : Char} (h : isPlain ch = true) : isMarked ch = false := by
  have hquote := ne_of_isPlain h (d := '"') (by decide)
  have hback := ne_of_isPlain h (d := '\\') (by decide)
  have hline := ne_of_isPlain h (d := '\n') (by decide)
  simp [isMarked, hquote, hback, hline]

theorem isPlain_upperCamel (s : String) : ∀ ch ∈ (Naming.upperCamel s).toList, isPlain ch = true :=
  fun ch hch => isPlain_of_isNameChar (isName_upperCamel s ch hch)

theorem isPlain_wireName (c : Column) : ∀ ch ∈ c.wireName.toList, isPlain ch = true := by
  intro ch hch
  rcases Naming.mem_snake_upperCamel hch with rfl | hname
  · decide
  · exact isPlain_of_isNameChar hname

/-! ## JSON texts -/

namespace Json

/-- A text without marks stands in quotes as it is. -/
theorem quote_of_isPlain {s : String} (h : ∀ ch ∈ s.toList, isPlain ch = true)
    (hcontrol : ∀ ch ∈ s.toList, 0x20 ≤ ch.toNat) : quote s = "\"" ++ s ++ "\"" := by
  have hescape {ch : Char} (hch : ch ∈ s.toList) : escape ch = [ch] := by
    have hcode := hcontrol ch hch
    have hquote := ne_of_isPlain (h ch hch) (d := '"') (by decide)
    have hback := ne_of_isPlain (h ch hch) (d := '\\') (by decide)
    have hlow (d : Char) (hd : d.toNat < 0x20) : ch ≠ d := by
      rintro rfl
      omega
    rw [escape, if_neg hquote, if_neg hback, if_neg (hlow '\n' (by decide)),
      if_neg (hlow '\r' (by decide)), if_neg (hlow '\t' (by decide)), if_neg (hlow '\x08' (by decide)),
      if_neg (hlow '\x0c' (by decide)), if_neg (by omega)]
  have hkept : s.toList.flatMap escape = s.toList := by
    rw [List.flatMap_def, List.map_congr_left fun ch hch => hescape hch, ← List.flatMap_def]
    exact List.flatMap_singleton' _
  refine String.toList_inj.1 ?_
  rw [quote, toList_onChars, hkept]
  simp

section

variable {p : Char → Prop}

/-- The text of an object on one line holds what the texts of its members hold, and the marks between
them. -/
theorem forall_compact_object (hmarks : ∀ ch ∈ "\x7b\x7d,:".toList, p ch)
    {members : List (String × Json)} (h : ∀ m ∈ members,
      (∀ ch ∈ (quote m.1).toList, p ch) ∧ ∀ ch ∈ (compact m.2).toList, p ch) :
    ∀ ch ∈ (compact (.object members)).toList, p ch := by
  have hmark {d : Char} (hmem : d ∈ "\x7b\x7d,:".toList) : ∀ ch ∈ [d], p ch :=
    List.forall_mem_singleton.2 (hmarks d hmem)
  have hrest (members : List (String × Json)) (h : ∀ m ∈ members,
      (∀ ch ∈ (quote m.1).toList, p ch) ∧ ∀ ch ∈ (compact m.2).toList, p ch) :
      ∀ ch ∈ (compactMembers members).toList, p ch := by
    induction members with
    | nil => simp [compactMembers]
    | cons m members ih =>
      obtain ⟨name, v⟩ := m
      obtain ⟨hm, hmembers⟩ := List.forall_mem_cons.1 h
      simp only [compactMembers, String.toList_append, List.forall_mem_append]
      exact ⟨⟨⟨⟨hmark (d := ',') (by decide), hm.1⟩, hmark (d := ':') (by decide)⟩, hm.2⟩,
        ih hmembers⟩
  cases members with
  | nil =>
    have hbraces : ∀ ch ∈ "\x7b\x7d".toList, ch ∈ "\x7b\x7d,:".toList := by decide
    have hempty : compact (.object []) = "\x7b\x7d" := by simp [compact, leaf]
    rw [hempty]
    exact fun ch hch => hmarks ch (hbraces ch hch)
  | cons m members =>
    obtain ⟨name, v⟩ := m
    obtain ⟨hm, hmembers⟩ := List.forall_mem_cons.1 h
    simp only [compact, String.toList_append, List.forall_mem_append]
    exact ⟨⟨⟨⟨⟨hmark (d := '\x7b') (by decide), hm.1⟩, hmark (d := ':') (by decide)⟩, hm.2⟩,
      hrest members hmembers⟩, hmark (d := '\x7d') (by decide)⟩

end

/-- What is set is a member, beside some of those before. -/
theorem mem_set {members : List (String × Json)} {name : String} {v : Json} {m : String × Json}
    (h : m ∈ set members name v) : m = (name, v) ∨ m ∈ members := by
  induction members with
  | nil => exact .inl (List.mem_singleton.1 h)
  | cons entry members ih =>
    obtain ⟨n, w⟩ := entry
    rw [set] at h
    split at h
    · next hn =>
      rcases List.mem_cons.1 h with rfl | h
      · exact .inl (by rw [hn])
      · exact .inr (List.mem_cons_of_mem _ h)
    · rcases List.mem_cons.1 h with rfl | h
      · exact .inr List.mem_cons_self
      · exact (ih h).imp_right (List.mem_cons_of_mem _)

end Json

namespace Document

/-- The members of a sample record are columns by their names on the wire. -/
theorem mem_sampleRecord {columns : List Column} {m : String × Json} (h : m ∈ sampleRecord columns) :
    ∃ c : Column, m = (c.wireName, sample c) := by
  have hfold (members : List (String × Json))
      (hmembers : ∀ m ∈ members, ∃ c : Column, m = (c.wireName, sample c)) :
      ∀ m ∈ columns.foldl (fun members c => Json.set members c.wireName (sample c)) members,
        ∃ c : Column, m = (c.wireName, sample c) := by
    clear h
    induction columns generalizing members with
    | nil => exact hmembers
    | cons c columns ih =>
      refine ih _ fun m hm => ?_
      rcases Json.mem_set hm with rfl | hm
      · exact ⟨c, rfl⟩
      · exact hmembers m hm
  exact hfold [] (fun m hm => absurd hm List.not_mem_nil) m h

/-- The members of the data of a request are columns by their names on the wire, and a page and its
size. -/
theorem mem_requestData {t : Table} {op : Operation} {m : String × Json} (h : m ∈ requestData t op) :
    (∃ c : Column, m = (c.wireName, sample c)) ∨ m = ("page", .number "1") ∨ m = ("size", .number "10") := by
  cases op with
  | list =>
    rcases Json.mem_set h with h | h
    · exact .inr (.inr h)
    · rcases Json.mem_set h with h | h
      · exact .inr (.inl h)
      · exact .inl (mem_sampleRecord h)
  | create | update | get | delete => exact .inl (mem_sampleRecord h)

/-- The samples are written without marks but double quotes. -/
theorem isPlain_sample (c : Column) :
    ∀ ch ∈ (sample c).compact.toList, ch = '"' ∨ isPlain ch = true := by
  have hleaves : ∀ entry ∈ samples, entry.2.compact = Json.leaf entry.2 := by
    simp [samples, Json.compact]
  have hall : ∀ entry ∈ samples, ∀ ch ∈ (Json.leaf entry.2).toList, ch = '"' ∨ isPlain ch = true := by
    decide
  unfold sample
  split
  · next names value hfind =>
    have hmem := List.mem_of_find?_eq_some hfind
    rw [hleaves _ hmem]
    exact hall _ hmem
  · have hempty : (Json.object []).compact = "\x7b\x7d" := by simp [Json.compact, Json.leaf]
    rw [hempty]
    decide

theorem control_of_isPlain_wireName (c : Column) : ∀ ch ∈ c.wireName.toList, 0x20 ≤ ch.toNat := by
  intro ch hch
  rcases Naming.mem_snake_upperCamel hch with rfl | hname
  · decide
  · simp only [isNameChar, Bool.or_eq_true, decide_eq_true_eq, isAlphanum_iff] at hname
    omega

/-- The name of a column on the wire is a key of a JSON text as it is. -/
theorem quote_wireName (c : Column) : Json.quote c.wireName = "\"" ++ c.wireName ++ "\"" :=
  Json.quote_of_isPlain (isPlain_wireName c) (control_of_isPlain_wireName c)

/-- A member of the data of a request has a name without marks and a value without marks but double
quotes. -/
theorem isPlain_member {t : Table} {op : Operation} {m : String × Json} (h : m ∈ requestData t op) :
    Json.quote m.1 = "\"" ++ m.1 ++ "\"" ∧ (∀ ch ∈ m.1.toList, isPlain ch = true)
      ∧ ∀ ch ∈ m.2.compact.toList, ch = '"' ∨ isPlain ch = true := by
  rcases mem_requestData h with ⟨c, rfl⟩ | rfl | rfl
  · exact ⟨quote_wireName c, isPlain_wireName c, isPlain_sample c⟩
  · exact ⟨by decide, by decide, by simp [Json.compact, Json.leaf]; decide⟩
  · exact ⟨by decide, by decide, by simp [Json.compact, Json.leaf]; decide⟩

/-- The text of a request on one line has no marks but double quotes. -/
theorem isPlain_request (t : Table) (op : Operation) :
    ∀ ch ∈ (request (requestData t op)).compact.toList, ch = '"' ∨ isPlain ch = true := by
  have hmarks : ∀ ch ∈ "\x7b\x7d,:".toList, ch = '"' ∨ isPlain ch = true := by decide
  have hquoted {s : String} (hquote : Json.quote s = "\"" ++ s ++ "\"")
      (hs : ∀ ch ∈ s.toList, isPlain ch = true) :
      ∀ ch ∈ (Json.quote s).toList, ch = '"' ∨ isPlain ch = true := by
    intro ch hch
    rw [hquote, String.toList_append, String.toList_append, List.mem_append, List.mem_append] at hch
    rcases hch with (hch | hch) | hch
    · exact .inl (List.mem_singleton.1 hch)
    · exact .inr (hs ch hch)
    · exact .inl (List.mem_singleton.1 hch)
  have hdata : ∀ ch ∈ (Json.object (requestData t op)).compact.toList, ch = '"' ∨ isPlain ch = true := by
    refine Json.forall_compact_object hmarks fun m hm => ?_
    obtain ⟨hquote, hname, hvalue⟩ := isPlain_member hm
    exact ⟨hquoted hquote hname, hvalue⟩
  have htime : ∀ ch ∈ (Json.number "1681466601123").compact.toList, ch = '"' ∨ isPlain ch = true := by
    simp [Json.compact, Json.leaf]
    decide
  have htimeKey := hquoted (s := "timestamp") (by decide) (by decide)
  have hdataKey := hquoted (s := "data") (by decide) (by decide)
  refine Json.forall_compact_object hmarks ?_
  rw [List.forall_mem_cons, List.forall_mem_singleton]
  exact ⟨⟨htimeKey, htime⟩, hdataKey, hdata⟩

/-- The section of an operation ends with the request between single quotes. -/
theorem exists_command (t : Table) (op : Operation) :
    ∃ front, operationSection t op = front ++ "\" -H \"Content-Type: application/json\" -d '"
      ++ (request (requestData t op)).compact ++ "'\n```\n\n" := ⟨_, rfl⟩

end Document

/-! ## Formats -/

namespace Record

/-- The letter of a column's verb. -/
theorem exists_verb (c : Column) :
    ∃ letter, c.verb.toList = ['%', letter] ∧ isVerbMark letter = false ∧ letter ≠ '%' := by
  unfold Column.verb
  split
  · exact ⟨'v', rfl, by decide, by decide⟩
  · split
    · exact ⟨'t', rfl, by decide, by decide⟩
    · exact ⟨'d', rfl, by decide, by decide⟩
    · exact ⟨'d', rfl, by decide, by decide⟩
    · exact ⟨'q', rfl, by decide, by decide⟩
    · exact ⟨'v', rfl, by decide, by decide⟩
    · exact ⟨'v', rfl, by decide, by decide⟩
    · exact ⟨'v', rfl, by decide, by decide⟩

/-- A verb is that of a column: it is written like the column's, right after the name of the column's
field, a colon and a blank, and the name begins after a brace or a blank. -/
structure Prints (d : Directive) (c : Column) : Prop where
  verb : '%' :: d.verb = c.verb.toList
  named : ∃ mark ∈ ['\x7b', ' '], mark :: (c.fieldName.toList ++ ": ".toList) <:+ d.before

/-- The verb of a field is that of its column, if the name begins after a brace or a blank. -/
theorem exists_directive {before : List Char} (hbefore : ∃ mark ∈ ['\x7b', ' '], [mark] <:+ before)
    (c : Column) (rest : List Char) :
    ∃ d, Prints d c ∧ directivesFrom before none ((c.fieldName ++ ": " ++ c.verb).toList ++ rest)
      = d :: directivesFrom [] none rest := by
  obtain ⟨mark, hmark, front, rfl⟩ := hbefore
  obtain ⟨letter, hverb, hplain, hpercent⟩ := exists_verb c
  have hname : '%' ∉ c.fieldName.toList ++ ": ".toList := by
    have hfield : '%' ∉ c.fieldName.toList := fun h =>
      absurd (isPlain_upperCamel c.name _ h) (by decide)
    rw [List.mem_append, not_or]
    exact ⟨hfield, by decide⟩
  refine ⟨⟨front ++ [mark] ++ (c.fieldName.toList ++ ": ".toList), [letter]⟩, ⟨hverb.symm, mark, hmark,
    front, by simp⟩, ?_⟩
  rw [String.toList_append, String.toList_append, hverb, List.append_assoc,
    directivesFrom_append hname]
  exact directivesFrom_verb hplain hpercent _ rest

/-- The verbs of the fields of a record are those of the columns. -/
theorem prints_join {before : List Char} (hbefore : ∃ mark ∈ ['\x7b', ' '], [mark] <:+ before)
    (columns : List Column) :
    List.Forall₂ Prints (directivesFrom before none
      ((join ", " (columns.map fun c => c.fieldName ++ ": " ++ c.verb)).toList ++ ['\x7d'])) columns := by
  induction columns generalizing before with
  | nil => exact .nil
  | cons c columns ih =>
    cases columns with
    | nil =>
      obtain ⟨d, hd, hread⟩ := exists_directive hbefore c ['\x7d']
      rw [List.map_singleton, join, hread]
      exact .cons hd .nil
    | cons next columns =>
      have hcomma : ∃ mark ∈ ['\x7b', ' '], [mark] <:+ ", ".toList := ⟨' ', by decide, [','], rfl⟩
      obtain ⟨d, hd, hread⟩ := exists_directive hbefore c (", ".toList
        ++ ((join ", " ((next :: columns).map fun c => c.fieldName ++ ": " ++ c.verb)).toList ++ ['\x7d']))
      have hnext := directivesFrom_append (show '%' ∉ ", ".toList by decide) []
        ((join ", " ((next :: columns).map fun c => c.fieldName ++ ": " ++ c.verb)).toList ++ ['\x7d'])
      rw [List.map_cons, List.map_cons, join, String.toList_append, String.toList_append (t := ", "),
        List.append_assoc, List.append_assoc]
      rw [List.map_cons] at hread hnext
      rw [hread, hnext]
      exact .cons hd (ih hcomma)

theorem printFormat_eq (t : Table) :
    (printFormat t).toList = (t.modelName.toList ++ ['\x7b'])
      ++ ((join ", " (t.columns.map fun c => c.fieldName ++ ": " ++ c.verb)).toList ++ ['\x7d']) := by
  simp [printFormat, composite]

/-- The format of a record has one verb per column, in order. -/
theorem prints_printFormat (t : Table) :
    List.Forall₂ Prints (directives (printFormat t).toList) t.columns := by
  have hname : '%' ∉ t.modelName.toList ++ ['\x7b'] := by
    have hmodel : '%' ∉ t.modelName.toList := fun h =>
      absurd (isPlain_upperCamel t.name _ h) (by decide)
    rw [List.mem_append, not_or]
    exact ⟨hmodel, by decide⟩
  rw [directives, printFormat_eq, directivesFrom_append hname, List.nil_append]
  exact prints_join ⟨'\x7b', by decide, List.suffix_append _ _⟩ t.columns

/-- The only marks of the format are the percent signs of its verbs. -/
theorem isPlain_printFormat (t : Table) :
    ∀ ch ∈ (printFormat t).toList, ch = '%' ∨ isPlain ch = true := by
  have hplain {ch : Char} : (ch != '%' && !isPlain ch) = false ↔ ch = '%' ∨ isPlain ch = true := by
    rw [Bool.and_eq_false_iff, bne_eq_false_iff_eq, Bool.not_eq_false']
  have hfields : ∀ s ∈ t.columns.map (fun c => c.fieldName ++ ": " ++ c.verb), ∀ ch ∈ s.toList,
      (ch != '%' && !isPlain ch) = false := by
    intro s hs ch hch
    obtain ⟨c, -, rfl⟩ := List.mem_map.1 hs
    have hverb : ∀ ch ∈ c.verb.toList, ch = '%' ∨ isPlain ch = true := by
      unfold Column.verb
      split
      · decide
      · split <;> decide
    have hcolon : ∀ ch ∈ ": ".toList, isPlain ch = true := by decide
    rw [String.toList_append, String.toList_append, List.mem_append, List.mem_append] at hch
    rw [hplain]
    rcases hch with (hch | hch) | hch
    · exact .inr (isPlain_upperCamel c.name ch hch)
    · exact .inr (hcolon ch hch)
    · exact hverb ch hch
  have hcomma : ∀ ch ∈ ", ".toList, (ch != '%' && !isPlain ch) = false := by decide
  have hjoined := (forall_join_iff (p := fun ch => ch != '%' && !isPlain ch) hcomma _).2 hfields
  have hbraces : ∀ ch ∈ ['\x7b', '\x7d'], isPlain ch = true := by decide
  intro ch hch
  rw [printFormat_eq, List.mem_append, List.mem_append, List.mem_append] at hch
  rcases hch with (hch | hch) | (hch | hch)
  · exact .inr (isPlain_upperCamel t.name ch hch)
  · exact .inr (hbraces ch (by simp [List.mem_singleton.1 hch]))
  · exact hplain.1 (hjoined ch hch)
  · exact .inr (hbraces ch (by simp [List.mem_singleton.1 hch]))

theorem printed_chars (c : Column) :
    ∀ ch ∈ (c.printed c.ofRecord).toList, ch ≠ ',' ∧ ch ≠ ' ' := by
  have hname : ∀ ch ∈ c.fieldName.toList, ch ≠ ',' ∧ ch ≠ ' ' := by
    intro ch hch
    have hchar := isName_upperCamel c.name ch hch
    constructor
    · rintro rfl
      exact absurd hchar (by decide)
    · rintro rfl
      exact absurd hchar (by decide)
  have hfixed : ∀ s ∈ ["s.", "deref(", ")"], ∀ ch ∈ s.toList, ch ≠ ',' ∧ ch ≠ ' ' := by decide
  have hrecord : ∀ ch ∈ c.ofRecord.toList, ch ≠ ',' ∧ ch ≠ ' ' := by
    intro ch hch
    rw [Column.ofRecord, String.toList_append, List.mem_append] at hch
    rcases hch with hch | hch
    · exact hfixed "s." (by decide) ch hch
    · exact hname ch hch
  intro ch hch
  unfold Column.printed at hch
  split at hch
  · rw [String.toList_append, String.toList_append, List.mem_append, List.mem_append] at hch
    rcases hch with (hch | hch) | hch
    · exact hfixed "deref(" (by decide) ch hch
    · exact hrecord ch hch
    · exact hfixed ")" (by decide) ch hch
  · exact hrecord ch hch

/-- The method that prints a record prints it once, with this format and one argument per column. -/
theorem printings_stringCode (t : Table) :
    printings (stringCode t)
      = [⟨(printFormat t).toList, t.columns.map fun c => (c.printed c.ofRecord).toList⟩] := by
  have hquote : '"' ∉ (printFormat t).toList := by
    intro hmem
    rcases isPlain_printFormat t _ hmem with h | h
    · exact absurd h (by decide)
    · exact absurd h (by decide)
  have harguments : ∀ s ∈ t.columns.map (fun c => c.printed c.ofRecord), ∀ ch ∈ s.toList,
      ch ≠ ',' ∧ ch ≠ ' ' := by
    intro s hs
    obtain ⟨c, -, rfl⟩ := List.mem_map.1 hs
    exact printed_chars c
  have hwritten := printings_written hquote harguments
  rw [List.map_map, List.map_map] at hwritten
  have hhead : printings (line ("func (s *" ++ t.modelName ++ ") String() string" ++ " \x7b")) = [] :=
    printings_line_of_head (by simp)
  have hguard : printings (block "if s == nil" (line "return \"<nil>\"")) = [] := by decide
  have hclosing : printings (line "\x7d") = [] ∧ printings gap = [] := by decide
  rw [stringCode, declaration, block, enclosed, printings_append, printings_append, printings_append,
    printings_indent, printings_append, hhead, hguard, hclosing.1, hclosing.2, List.nil_append,
    List.nil_append, List.append_nil, List.append_nil]
  exact hwritten

end Record

/-! ## Keys of handlers -/

theorem Router.isPlain_routeKey (t : Table) (op : Operation) :
    ∀ ch ∈ (routeKey t op).toList, isPlain ch = true := by
  have hpath {ch : Char} (h : isPathChar ch = true) : isPlain ch = true := by
    rw [isPathChar, Bool.or_eq_true, Bool.or_eq_true, beq_iff_eq, beq_iff_eq] at h
    rcases h with (h | rfl) | rfl
    · exact isPlain_of_isNameChar h
    · decide
    · decide
  have hmethod : ∀ ch ∈ op.method.toList, isPlain ch = true := by
    cases op <;> decide
  intro ch hch
  rw [routeKey, String.toList_append, String.toList_append, List.mem_append, List.mem_append] at hch
  rcases hch with (hch | hch) | hch
  · exact hmethod ch hch
  · rw [List.mem_singleton.1 hch]
    decide
  · exact hpath (op.isPathChar_route t ch hch)

/-! ## Names -/

/-- What holds of the names of a table wherever they are pasted. -/
structure Pasted (t : Table) : Prop where
  /-- The ASCII characters of upper camel names are letters and digits. -/
  camel : ∀ name ∈ t.name :: t.columns.map (·.name), ∀ ch ∈ (Naming.upperCamel name).toList,
    ch.toNat < 0x80 → ch.isAlphanum = true
  /-- Those of names on the wire are lower-case letters, digits and underscores. -/
  wires : ∀ c ∈ t.columns, ∀ ch ∈ c.wireName.toList,
    ch.toNat < 0x80 → ch.isLower = true ∨ ch.isDigit = true ∨ ch = '_'
  /-- Those of routes are lower-case letters, digits and hyphens. -/
  routes : ∀ ch ∈ t.routeName.toList,
    ch.toNat < 0x80 → ch.isLower = true ∨ ch.isDigit = true ∨ ch = '-'
  /-- In either style the tag of a field tells the name on the wire, which has no marks. -/
  tags : ∀ c ∈ t.columns, (∀ ch ∈ c.wireName.toList, isPlain ch = true)
    ∧ ∀ isKey style, fieldDecl? (Record.fieldLine c isKey style).toList = some c.field
  /-- The names in the data of a request are keys of a JSON text as they are. -/
  members : ∀ op, ∀ m ∈ Document.requestData t op,
    Json.quote m.1 = "\"" ++ m.1 ++ "\"" ∧ ∀ ch ∈ m.1.toList, isPlain ch = true
  /-- The key of a handler is read as it is written, and has no marks. -/
  handlers : ∀ op, (∀ ch ∈ (Router.routeKey t op).toList, isPlain ch = true)
    ∧ ∃ rest, interpreted? (Router.routeLine t op).toList = some (utf8 (Router.routeKey t op).toList, rest)
  /-- The command of an operation sends the request between single quotes; it has no marks but double
  quotes. -/
  commands : ∀ op, (∃ front, Document.operationSection t op
      = front ++ "\" -H \"Content-Type: application/json\" -d '"
        ++ (Document.request (Document.requestData t op)).compact ++ "'\n```\n\n")
    ∧ ∀ ch ∈ (Document.request (Document.requestData t op)).compact.toList, ch = '"' ∨ isPlain ch = true
  /-- A record is printed once. The format is a literal as it is and has no marks but the percent signs of
  its verbs, one per column in the order of the arguments. -/
  printing : ∃ format arguments, printings (Record.stringCode t) = [⟨format, arguments⟩]
      ∧ literalValue? ('"' :: (format ++ ['"'])) = some (utf8 format)
      ∧ (∀ ch ∈ format, ch = '%' ∨ isPlain ch = true)
      ∧ List.Forall₂ Record.Prints (directives format) t.columns
      ∧ arguments = t.columns.map fun c => (c.printed c.ofRecord).toList

/-- For every table, whatever it and its columns are called: the names made from theirs hold none of the
marks of what they are pasted into, so that tags, keys, commands and formats are read as they are
written. -/
theorem pasted (t : Table) : Pasted t where
  camel name _ ch hch hascii := Naming.isAlphanum_of_mem_upperCamel hch hascii
  wires := by
    intro c _ ch hch hascii
    rw [Column.wireName, Naming.snake, toList_onChars] at hch
    exact Naming.lower_of_mem_separate (by decide) (isName_upperCamel c.name) hch hascii
  routes := by
    intro ch hch hascii
    rw [Table.routeName, Naming.kebab, toList_onChars] at hch
    exact Naming.lower_of_mem_separate (by decide) Naming.isNameChar_upperCamelChars hch hascii
  tags c _ := ⟨isPlain_wireName c, Record.fieldDecl?_fieldLine c⟩
  members op m hm := ⟨(Document.isPlain_member hm).1, (Document.isPlain_member hm).2.1⟩
  handlers op := by
    have hkey := Router.isPlain_routeKey t op
    refine ⟨hkey, ?_⟩
    have hline : (Router.routeLine t op).toList = '"' :: ((Router.routeKey t op).toList
        ++ '"' :: (": r." ++ op.methodName t.modelName ++ ",").toList) := by
      simp [Router.routeLine]
    refine ⟨(": r." ++ op.methodName t.modelName ++ ",").toList, ?_⟩
    rw [hline, interpreted?, if_pos rfl, literalTail_plain fun ch hch => isMarked_of_isPlain (hkey ch hch)]
  commands := by
    intro op
    exact ⟨Document.exists_command t op, Document.isPlain_request t op⟩
  printing := by
    have hformat : ∀ ch ∈ (Record.printFormat t).toList, isMarked ch = false := by
      intro ch hch
      rcases Record.isPlain_printFormat t ch hch with rfl | hplain
      · decide
      · exact isMarked_of_isPlain hplain
    exact ⟨_, _, Record.printings_stringCode t, literalValue?_plain hformat, Record.isPlain_printFormat t,
      Record.prints_printFormat t, rfl⟩

end GoScaffold
