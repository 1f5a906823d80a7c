import GoScaffold.Artifact.Record
import GoScaffold.Proofs.Go.Tags
import GoScaffold.Proofs.Text.Paths
import GoScaffold.Schema.Basic

set_option autoImplicit false

/-! # The settings in tags

With gorm the tag of a field holds settings of its column, the name and the default among them as
they stand in the declaration. Both are pasted into a literal within a raw string, and only backticks
are taken out of the default. So the settings are read back just if neither of the two holds a
character that ends one of the strings, begins an escape or does not count (`settings_told_iff`). -/

namespace GoScaffold.Record

open Go Text

/-! ## Settings -/

/-- The default that the tag of a column tells. -/
def toldDefault (c : Column) : Option String := if c.hasLiteralDefault then c.default else none

/-- A text without backticks. -/
def unticked (s : String) : String := onChars (fun cs => cs.filter (· != '`')) s

/-- The settings of a column with this default. -/
def settings (c : Column) (isKey : Bool) (default : Option String) : List String :=
  gormSettings { c with default := none } isKey ++ (default.map ("default:" ++ ·)).toList

/-- What is rendered are the settings with the backticks of the default left out. -/
theorem gormSettings_eq (c : Column) (isKey : Bool) :
    gormSettings c isKey = settings c isKey ((toldDefault c).map unticked) := by
  unfold settings toldDefault
  cases hliteral : c.hasLiteralDefault <;> cases hdefault : c.default <;>
    simp [gormSettings, hliteral, hdefault, unticked]

theorem settings_ne_nil (c : Column) (isKey : Bool) (default : Option String) :
    settings c isKey default ≠ [] := by
  simp [settings, gormSettings]

/-- The fixed texts of settings. -/
def settingTexts : List String := ["column:", "primaryKey", "autoIncrement", "not null", "default:"]

/-- Besides fixed texts, settings hold the characters of the name and of the default. -/
theorem forall_settings_iff {p : Char → Bool} (hp : ∀ s ∈ settingTexts, ∀ ch ∈ s.toList, p ch = false)
    (c : Column) (isKey : Bool) (default : Option String) :
    (∀ s ∈ settings c isKey default, ∀ ch ∈ s.toList, p ch = false)
      ↔ (∀ ch ∈ c.name.toList, p ch = false) ∧ ∀ d ∈ default, ∀ ch ∈ d.toList, p ch = false := by
  have hwhen (b : Bool) {s : String} (hs : s ∈ settingTexts) :
      ∀ u ∈ (if b = true then [s] else []), ∀ ch ∈ u.toList, p ch = false := by
    intro u hu
    split at hu
    · rw [List.mem_singleton.1 hu]
      exact hp s hs
    · exact absurd hu List.not_mem_nil
  have hcolumn : (∀ u ∈ ["column:" ++ c.name], ∀ ch ∈ u.toList, p ch = false)
      ↔ ∀ ch ∈ c.name.toList, p ch = false := by
    rw [List.forall_mem_singleton, String.toList_append, List.forall_mem_append,
      and_iff_right (hp "column:" (by decide))]
  have hdefault : (∀ u ∈ (default.map ("default:" ++ ·)).toList, ∀ ch ∈ u.toList, p ch = false)
      ↔ ∀ d ∈ default, ∀ ch ∈ d.toList, p ch = false := by
    cases default with
    | none => simp
    | some d =>
      rw [Option.map_some, Option.toList_some, List.forall_mem_singleton, String.toList_append,
        List.forall_mem_append, and_iff_right (hp "default:" (by decide))]
      simp
  have hfront : gormSettings { c with default := none } isKey
      = ["column:" ++ c.name] ++ (if isKey = true then ["primaryKey"] else [])
        ++ (if c.flags.autoIncrement = true then ["autoIncrement"] else [])
        ++ (if c.flags.notNull = true then ["not null"] else []) := List.append_nil _
  rw [settings, hfront, List.forall_mem_append, List.forall_mem_append, List.forall_mem_append,
    List.forall_mem_append, hcolumn, hdefault, and_iff_left (hwhen isKey (by decide)),
    and_iff_left (hwhen _ (by decide)), and_iff_left (hwhen _ (by decide))]

/-- What is left out of the default is left out of the settings, and nothing else. -/
theorem join_settings_unticked_sublist (c : Column) (isKey : Bool) (default : Option String) :
    (join ";" (settings c isKey (default.map unticked))).toList.Sublist
      (join ";" (settings c isKey default)).toList := by
  cases default with
  | none => exact List.Sublist.refl _
  | some d =>
    have hunticked : (unticked d).toList.Sublist d.toList := by
      rw [unticked, toList_onChars]
      exact List.filter_sublist
    simp only [settings, Option.map_some, Option.toList_some, join_concat, String.toList_append,
      List.append_sublist_append_left]
    exact hunticked

/-! ## Tags -/

/-- The characters that a text loses or breaks a tag with if it is pasted into the tag. -/
def spoilsTag (ch : Char) : Bool := isMarked ch || ch == '`' || ch == '\r'

/-- The tag of a field as it stands in the code. -/
def writtenTag (c : Column) (isKey : Bool) : List Char :=
  ("`" ++ fieldTag c isKey .orm ++ "`").toList

/-- The tag is well formed, and its value for gorm is the list of these settings. -/
def Tells (c : Column) (isKey : Bool) (settings : List String) : Prop :=
  ∃ pairs, tagPairs? (writtenTag c isKey) = some pairs
    ∧ pairs.lookup "gorm".toList = some (utf8 (join ";" settings).toList)

/-- The pairs of a tag that tells these settings. -/
def tagPairs (c : Column) (settings : List String) : List (List Char × List UInt8) :=
  [("json".toList, utf8 c.wireName.toList), ("form".toList, utf8 c.wireName.toList),
    ("gorm".toList, utf8 (join ";" settings).toList)]

/-- What stands between the backticks, with the settings set apart. -/
def tagBody (c : Column) (value : List Char) : List Char :=
  "json".toList ++ ':' :: '"' :: (c.wireName.toList ++ '"' :: ' '
    :: ("form".toList ++ ':' :: '"' :: (c.wireName.toList ++ '"' :: ' '
      :: ("gorm".toList ++ ':' :: '"' :: (value ++ ['"'])))))

theorem writtenTag_eq (c : Column) (isKey : Bool) :
    writtenTag c isKey
      = '`' :: (tagBody c (join ";" (gormSettings c isKey)).toList ++ ['`']) := by
  simp [writtenTag, fieldTag, tagBody]

theorem spoilsTag_wireName {c : Column} : ∀ ch ∈ c.wireName.toList, spoilsTag ch = false := by
  intro ch hch
  rcases Naming.mem_snake_upperCamel hch with rfl | hname
  · decide
  · have hmarks : ∀ d ∈ ['"', '\\', '\n', '`', '\r'], isNameChar d = false := by decide
    have hne : ∀ d ∈ ['"', '\\', '\n', '`', '\r'], ch ≠ d := by
      rintro d hd rfl
      rw [hmarks ch hd] at hname
      cases hname
    simp only [List.forall_mem_cons] at hne
    simp [spoilsTag, isMarked, hne]

theorem tick_mem_tagBody_iff {c : Column} {value : List Char} :
    '`' ∈ tagBody c value ↔ '`' ∈ value := by
  have hwire : '`' ∉ c.wireName.toList := fun h => absurd (spoilsTag_wireName _ h) (by decide)
  simp [tagBody, hwire]

theorem filter_tagBody (c : Column) (value : List Char) :
    (tagBody c value).filter (· != '\r') = tagBody c (value.filter (· != '\r')) := by
  have hwire : c.wireName.toList.filter (· != '\r') = c.wireName.toList := by
    refine List.filter_eq_self.2 fun ch hch => bne_iff_ne.2 ?_
    rintro rfl
    exact absurd (spoilsTag_wireName _ hch) (by decide)
  simp [tagBody, hwire]

/-- The pairs of the tag but the last are read whatever the settings are. -/
theorem pairs?_tagBody (c : Column) (value : List Char) :
    pairs? (tagBody c value)
      = (pairs? ("gorm".toList ++ ':' :: '"' :: (value ++ ['"']))).map fun pairs =>
        ("json".toList, utf8 c.wireName.toList) :: ("form".toList, utf8 c.wireName.toList) :: pairs := by
  have hwire : ∀ ch ∈ c.wireName.toList, isMarked ch = false := by
    intro ch hch
    have hspoils := spoilsTag_wireName ch hch
    simp only [spoilsTag, Bool.or_eq_false_iff] at hspoils
    exact hspoils.1.1
  rw [tagBody, pairs?_cons (by decide) (by decide) hwire, pairs?_cons (by decide) (by decide) hwire,
    Option.map_map]
  rfl

/-- A tag whose settings hold nothing that spoils it is read back. -/
theorem tagPairs?_writtenTag {c : Column} {isKey : Bool}
    (h : ∀ ch ∈ (join ";" (gormSettings c isKey)).toList, spoilsTag ch = false) :
    tagPairs? (writtenTag c isKey) = some (tagPairs c (gormSettings c isKey)) := by
  have hbody := fun ch hch => (Bool.or_eq_false_iff.1 (h ch hch))
  simp only [Bool.or_eq_false_iff, beq_eq_false_iff_ne] at hbody
  have htick : '`' ∉ tagBody c (join ";" (gormSettings c isKey)).toList :=
    fun hmem => (hbody _ (tick_mem_tagBody_iff.1 hmem)).1.2 rfl
  have hkept : (join ";" (gormSettings c isKey)).toList.filter (· != '\r')
      = (join ";" (gormSettings c isKey)).toList :=
    List.filter_eq_self.2 fun ch hch => bne_iff_ne.2 (hbody ch hch).2
  have hraw := rawValue?_eq_some.2 ⟨htick, rfl⟩
  rw [tagPairs?, writtenTag_eq, hraw, Option.bind_some, filter_tagBody, hkept, pairs?_tagBody,
    pairs?_plain (by decide) (by decide) fun ch hch => (hbody ch hch).1.1]
  rfl

/-- A tag is read back as settings no shorter than its own only if these are its own and hold nothing
that spoils it. -/
theorem plain_of_tells {c : Column} {isKey : Bool} {settings : List String} (h : Tells c isKey settings)
    (hlength : (utf8 (join ";" (gormSettings c isKey)).toList).length
      ≤ (utf8 (join ";" settings).toList).length) :
    utf8 (join ";" settings).toList = utf8 (join ";" (gormSettings c isKey)).toList
      ∧ ∀ ch ∈ (join ";" (gormSettings c isKey)).toList, spoilsTag ch = false := by
  obtain ⟨pairs, hpairs, hlookup⟩ := h
  rw [tagPairs?, writtenTag_eq] at hpairs
  obtain ⟨raw, hraw, hpairs⟩ := Option.bind_eq_some_iff.1 hpairs
  obtain ⟨htick, rfl⟩ := rawValue?_eq_some.1 hraw
  rw [filter_tagBody, pairs?_tagBody] at hpairs
  obtain ⟨last, hlast, rfl⟩ := Option.map_eq_some_iff.1 hpairs
  rw [List.lookup_cons, List.lookup_cons] at hlookup
  -- Carriage returns are lost before the pairs are read.
  have hkept := length_utf8_le_of_sublist
    (List.filter_sublist (p := (· != '\r')) (l := (join ";" (gormSettings c isKey)).toList))
  obtain ⟨hvalue, hmarks⟩ := plain_of_pairs? (by decide) (by decide) hlast hlookup (by omega)
  have hsame := eq_of_sublist_of_length_utf8
    (List.filter_sublist (p := (· != '\r')) (l := (join ";" (gormSettings c isKey)).toList))
    (by rw [← hvalue]; exact hlength)
  rw [hsame] at hvalue hmarks
  refine ⟨hvalue, fun ch hch => ?_⟩
  have hreturn := List.filter_eq_self.1 hsame ch hch
  have hbacktick : ch ≠ '`' := by
    rintro rfl
    exact htick (tick_mem_tagBody_iff.2 hch)
  simpa [spoilsTag, hmarks ch hch, hbacktick] using hreturn

/-! ## What tags tell -/

theorem forall_join_settings_iff (c : Column) (isKey : Bool) (default : Option String) :
    (∀ ch ∈ (join ";" (settings c isKey default)).toList, spoilsTag ch = false)
      ↔ (∀ ch ∈ c.name.toList, spoilsTag ch = false)
        ∧ ∀ d ∈ default, ∀ ch ∈ d.toList, spoilsTag ch = false := by
  rw [forall_join_iff (by decide), forall_settings_iff (by decide)]

theorem mem_tagPairs (c : Column) (settings : List String) :
    (tagPairs c settings).lookup "gorm".toList = some (utf8 (join ";" settings).toList) := rfl

/-- What is rendered is told just if nothing spoils the tag besides the backticks of the default, which
are left out. -/
theorem tells_gormSettings_iff (c : Column) (isKey : Bool) :
    Tells c isKey (gormSettings c isKey)
      ↔ (∀ ch ∈ c.name.toList, spoilsTag ch = false)
        ∧ ∀ d ∈ toldDefault c, ∀ ch ∈ d.toList, ch ≠ '`' → spoilsTag ch = false := by
  have hunticked : (∀ d ∈ (toldDefault c).map unticked, ∀ ch ∈ d.toList, spoilsTag ch = false)
      ↔ ∀ d ∈ toldDefault c, ∀ ch ∈ d.toList, ch ≠ '`' → spoilsTag ch = false := by
    cases toldDefault c <;> simp [unticked, toList_onChars]
  rw [← hunticked, ← forall_join_settings_iff c isKey, ← gormSettings_eq]
  constructor
  · exact fun h => (plain_of_tells h (Nat.le_refl _)).2
  · exact fun h => ⟨_, tagPairs?_writtenTag h, mem_tagPairs c _⟩

/-- Where nothing of the name and of the default spoils the tag, it is read back as it should be. -/
theorem tagPairs?_of_plain {c : Column} {isKey : Bool}
    (h : (∀ ch ∈ c.name.toList, spoilsTag ch = false)
      ∧ ∀ d ∈ toldDefault c, ∀ ch ∈ d.toList, spoilsTag ch = false) :
    tagPairs? (writtenTag c isKey) = some (tagPairs c (settings c isKey (toldDefault c))) := by
  have hdefault : (toldDefault c).map unticked = toldDefault c := by
    cases hd : toldDefault c with
    | none => rfl
    | some d =>
      have hkept : d.toList.filter (· != '`') = d.toList := by
        refine List.filter_eq_self.2 fun ch hch => bne_iff_ne.2 ?_
        rintro rfl
        exact absurd (h.2 d hd _ hch) (by decide)
      rw [Option.map_some, unticked, onChars, hkept, String.ofList_toList]
  have hsame : settings c isKey (toldDefault c) = gormSettings c isKey := by
    rw [gormSettings_eq, hdefault]
  rw [← forall_join_settings_iff c isKey, hsame] at h
  rw [hsame]
  exact tagPairs?_writtenTag h

/-- Where the settings are told with the default as it is, nothing of the name and of the default spoils
the tag. -/
theorem plain_of_tells_settings {c : Column} {isKey : Bool}
    (h : Tells c isKey (settings c isKey (toldDefault c))) :
    (∀ ch ∈ c.name.toList, spoilsTag ch = false)
      ∧ ∀ d ∈ toldDefault c, ∀ ch ∈ d.toList, spoilsTag ch = false := by
  have hsublist := join_settings_unticked_sublist c isKey (toldDefault c)
  rw [← gormSettings_eq] at hsublist
  obtain ⟨hvalue, hplain⟩ := plain_of_tells h (length_utf8_le_of_sublist hsublist)
  have hsame := eq_of_sublist_of_length_utf8 hsublist (Nat.le_of_eq (congrArg List.length hvalue))
  rw [hsame] at hplain
  exact (forall_join_settings_iff c isKey _).1 hplain

/-- For every column, in a key or not: the tag is well formed and its value for gorm is the list of the
settings with the default as it is, and then its pairs are the two names on the wire and that list, if
and only if neither the name nor the default holds a quote, a backslash, a line feed, a backtick or a
carriage return. Backticks of the default alone are left out and spoil nothing else. The list falls
into the settings again at its semicolons if and only if neither of the two holds one. -/
theorem settings_told_iff (c : Column) (isKey : Bool) :
    (Tells c isKey (settings c isKey (toldDefault c))
        ↔ (∀ ch ∈ c.name.toList, spoilsTag ch = false)
          ∧ ∀ d ∈ toldDefault c, ∀ ch ∈ d.toList, spoilsTag ch = false)
      ∧ (tagPairs? (writtenTag c isKey) = some (tagPairs c (settings c isKey (toldDefault c)))
        ↔ (∀ ch ∈ c.name.toList, spoilsTag ch = false)
          ∧ ∀ d ∈ toldDefault c, ∀ ch ∈ d.toList, spoilsTag ch = false)
      ∧ (Tells c isKey (settings c isKey ((toldDefault c).map unticked))
        ↔ (∀ ch ∈ c.name.toList, spoilsTag ch = false)
          ∧ ∀ d ∈ toldDefault c, ∀ ch ∈ d.toList, ch ≠ '`' → spoilsTag ch = false)
      ∧ (splitWhere (· == ';') (join ";" (settings c isKey (toldDefault c))).toList
          = (settings c isKey (toldDefault c)).map (·.toList)
        ↔ ';' ∉ c.name.toList ∧ ∀ d ∈ toldDefault c, ';' ∉ d.toList) := by
  refine ⟨⟨plain_of_tells_settings, fun h => ⟨_, tagPairs?_of_plain h, mem_tagPairs c _⟩⟩,
    ⟨fun h => plain_of_tells_settings ⟨_, h, mem_tagPairs c _⟩, tagPairs?_of_plain⟩, ?_, ?_⟩
  · rw [← gormSettings_eq]
    exact tells_gormSettings_iff c isKey
  · have hsemicolon (cs : List Char) : (∀ ch ∈ cs, (ch == ';') = false) ↔ ';' ∉ cs := by
      simp [List.forall_mem_ne']
    have hsep : String.singleton ';' = ";" := by decide
    have hsplit := splitWhere_join_iff (p := (· == ';')) ';' (by decide)
      (settings_ne_nil c isKey (toldDefault c))
    rw [forall_settings_iff (by decide), hsep] at hsplit
    simpa only [hsemicolon] using hsplit

/-- A column whose default stands in double quotes, as it is read from its declaration: its tag does not
tell its settings. -/
theorem not_settings_told_quotedDefault :
    ¬∀ (text : String), ∀ t ∈ (Schema.parse text).tables, ∀ c ∈ t.columns,
      Tells c (isKeyColumn t c) (settings c (isKeyColumn t c) (toldDefault c)) := by
  intro h
  have htables : (Schema.parse "CREATE TABLE t (a VARCHAR(8) DEFAULT \"x\");").tables
      = [⟨"t", [⟨"a", "VARCHAR", { hasDefault := true }, none, some "\"x\""⟩], [], [], [], none⟩] := by
    decide +kernel
  have htold := h "CREATE TABLE t (a VARCHAR(8) DEFAULT \"x\");" _
    (by rw [htables]; exact List.mem_singleton_self _) _ (List.mem_singleton_self _)
  exact absurd ((plain_of_tells_settings htold).2 "\"x\"" rfl '"' (by decide)) (by decide)

end GoScaffold.Record
