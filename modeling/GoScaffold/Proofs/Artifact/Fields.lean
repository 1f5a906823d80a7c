import Mathlib.Data.List.Forall2
import Mathlib.Data.List.Nodup
import GoScaffold.Artifact.Record
import GoScaffold.Proofs.Artifact.Settings
import GoScaffold.Proofs.Go.Structs
import GoScaffold.Proofs.Text.Snake

set_option autoImplicit false

/-! # The fields of records

The file of record types declares one struct per table with one field per column. Names lose
information, so columns of different names may come to the same field or to the same name in JSON
texts; what is declared tells exactly when they do (`structs_declare`). -/

namespace GoScaffold

open Go Text

/-- The field of a column: its name, and its name on the wire in JSON texts and in forms. -/
def Column.field (c : Column) : FieldDecl :=
  ⟨c.fieldName, some (utf8 c.wireName.toList), some (utf8 c.wireName.toList)⟩

namespace Record

/-! ## Lines of fields -/

/-- The part of a tag that both styles have. -/
def wireTag (c : Column) : List Char :=
  "json".toList ++ ':' :: '"' :: (c.wireName.toList ++ '"' :: ' '
    :: ("form".toList ++ ':' :: '"' :: (c.wireName.toList ++ ['"'])))

theorem exists_fieldTag (c : Column) (isKey : Bool) (style : Style) :
    ∃ more, (fieldTag c isKey style).toList = wireTag c ++ more := by
  cases style with
  | plain => exact ⟨[], by simp [fieldTag, wireTag]⟩
  | orm =>
    exact ⟨" gorm:\"".toList ++ (join ";" (gormSettings c isKey)).toList ++ ['"'],
      by simp [fieldTag, wireTag]⟩

theorem isMarked_wireName (c : Column) : ∀ ch ∈ c.wireName.toList, isMarked ch = false := by
  intro ch hch
  have hspoils := spoilsTag_wireName ch hch
  simp only [spoilsTag, Bool.or_eq_false_iff] at hspoils
  exact hspoils.1.1

/-- Whatever follows them, the names on the wire are read. -/
theorem tagValue?_wireTag (c : Column) (more : List Char) :
    tagValue? "json".toList (wireTag c ++ more) = some (utf8 c.wireName.toList)
      ∧ tagValue? "form".toList (wireTag c ++ more) = some (utf8 c.wireName.toList) := by
  have hmarks := isMarked_wireName c
  have hshape : wireTag c ++ more = "json".toList ++ ':' :: '"' :: (c.wireName.toList ++ '"' :: (' '
      :: ("form".toList ++ ':' :: '"' :: (c.wireName.toList ++ '"' :: more)))) := by
    simp [wireTag]
  constructor
  · rw [hshape, tagValue?_written (by decide) (by decide) hmarks, if_pos rfl]
  · rw [hshape, tagValue?_written (by decide) (by decide) hmarks, if_neg (by decide), tagValue?_blank,
      tagValue?_written (by decide) (by decide) hmarks, if_pos rfl]

theorem tick_notMem_goType (c : Column) : '`' ∉ c.goType.toList := by
  have hall : ∀ category : TypeCategory, ∀ pointer : Bool,
      '`' ∉ (nullable category.goType pointer).toList := by
    intro category pointer
    cases category <;> cases pointer <;> decide
  exact hall c.category c.isPointer

theorem blank_notMem_fieldName (c : Column) : ' ' ∉ c.fieldName.toList := fun h =>
  absurd (isName_upperCamel c.name ' ' h) (by decide)

/-- The line of a column declares its field. -/
theorem fieldDecl?_fieldLine (c : Column) (isKey : Bool) (style : Style) :
    fieldDecl? (fieldLine c isKey style).toList = some c.field := by
  obtain ⟨more, htag⟩ := exists_fieldTag c isKey style
  obtain ⟨comment, hline⟩ : ∃ comment, (fieldLine c isKey style).toList
      = c.fieldName.toList ++ ' ' :: ((c.goType.toList ++ [' '])
        ++ '`' :: (wireTag c ++ (more ++ '`' :: comment))) := by
    simp only [fieldLine, String.toList_append, htag, List.append_assoc]
    exact ⟨_, rfl⟩
  obtain ⟨before, after, hcut⟩ := exists_splitOnce (show '`' ∈ more ++ '`' :: comment by simp)
  have htype : '`' ∉ c.goType.toList ++ [' '] := by
    simp [tick_notMem_goType c]
  have hwire : '`' ∉ wireTag c := by
    have hname : '`' ∉ c.wireName.toList := fun h => absurd (spoilsTag_wireName _ h) (by decide)
    simp [wireTag, hname]
  have hkept : (wireTag c).filter (· != '\r') = wireTag c := by
    have hname : c.wireName.toList.filter (· != '\r') = c.wireName.toList := by
      refine List.filter_eq_self.2 fun ch hch => bne_iff_ne.2 ?_
      rintro rfl
      exact absurd (spoilsTag_wireName _ hch) (by decide)
    simp [wireTag, hname]
  obtain ⟨hjson, hform⟩ := tagValue?_wireTag c (before.filter (· != '\r'))
  rw [fieldDecl?, hline, splitOnce_append (blank_notMem_fieldName c), Option.bind_some]
  dsimp only
  rw [splitOnce_append htype, Option.bind_some]
  dsimp only
  rw [splitOnce_append_of_notMem hwire, hcut, Option.map_some, Option.map_some]
  simp only [List.filter_append, hkept, hjson, hform, String.ofList_toList]
  rfl

/-! ## Structs -/

theorem filterMap_fieldLines (isKey : Column → Bool) (style : Style) (columns : List Column) :
    (Go.lines (columns.map fun c => fieldLine c (isKey c) style)).filterMap
      (fun l => fieldDecl? l.text.toList) = columns.map Column.field := by
  induction columns with
  | nil => rfl
  | cons c columns ih =>
    have hfield : fieldDecl? (Line.mk 0 (fieldLine c (isKey c) style)).text.toList = some c.field :=
      fieldDecl?_fieldLine c _ style
    rw [Go.lines] at ih ⊢
    rw [List.map_cons, List.map_cons, List.filterMap_cons, hfield, ih, List.map_cons]

theorem structs_structCode (t : Table) (style : Style) :
    structs (structCode t style) = [⟨t.modelName, t.columns.map Column.field⟩] := by
  have hcomment : (structComment t).toList.head? ≠ some 't' := by
    unfold structComment
    split <;> simp
  have hname : IsName t.modelName := isName_upperCamel t.name
  rw [structCode, structs_append (isFlush_declaration _ _), structs_line hcomment,
    structs_declaration hname, filterMap_fieldLines (isKeyColumn t), List.nil_append]

theorem structs_tableNameCode (t : Table) : structs (tableNameCode t) = [] := by
  rw [tableNameCode]
  exact structs_declaration_of_not _ (by simp)

theorem structs_stringCode (t : Table) : structs (stringCode t) = [] := by
  rw [stringCode]
  exact structs_declaration_of_not _ (by simp)

theorem structs_tableCode (t : Table) (style : Style) :
    structs (tableCode t style) = [⟨t.modelName, t.columns.map Column.field⟩] := by
  have hstring : IsFlush (stringCode t) := isFlush_declaration _ _
  have hname : IsFlush (tableNameCode t) := isFlush_declaration _ _
  have hstruct : IsFlush (structCode t style) := isFlush_cons rfl _
  cases style with
  | orm =>
    rw [tableCode, structs_append hstring, structs_append hname, structs_append hstruct, structs_heading,
      structs_structCode, structs_tableNameCode, structs_stringCode]
    rfl
  | plain =>
    rw [tableCode, structs_append hstring, structs_append isFlush_nil, structs_append hstruct,
      structs_heading, structs_structCode, structs_stringCode]
    rfl

/-- The file declares one struct per table and no other. -/
theorem structs_file (tables : List Table) (o : Options) (today : String) :
    structs (file tables o today).body
      = tables.map fun t => ⟨t.modelName, t.columns.map Column.field⟩ := by
  have htable (t : Table) : IsFlush (tableCode t o.style) := isFlush_cons rfl _
  have hderef : structs (if tables.any (·.columns.any (·.isPointer)) then derefCode else []) = [] := by
    split
    · rw [derefCode]
      exact structs_declaration_of_not _ (by decide)
    · rfl
  have hflush : IsFlush (if tables.any (·.columns.any (·.isPointer)) then derefCode else []) := by
    split
    · exact isFlush_declaration _ _
    · exact isFlush_nil
  rw [file, structs_append hflush, hderef, List.append_nil, structs_flatMap htable]
  simp only [structs_tableCode]
  exact List.map_eq_flatMap.symm

/-! ## Fields apart -/

/-- What a struct declares for a table. -/
structure Declares (t : Table) (d : StructDecl) : Prop where
  /-- One field per column, called by the upper camel form of its name. -/
  names : d.fields.map (·.name) = t.columns.map fun c => Naming.upperCamel c.name
  /-- In JSON texts a field is called by the snake form of its name. -/
  tags : d.fields.map (·.json) = d.fields.map fun f => some (utf8 (Naming.snake f.name).toList)
  /-- No field is declared twice just if the upper camel forms of the columns' names differ. -/
  names_nodup_iff :
    (d.fields.map (·.name)).Nodup ↔ (t.columns.map fun c => Naming.upperCamel c.name).Nodup
  /-- Where no two fields have the same tag, no field is declared twice. -/
  names_nodup : (d.fields.map (·.json)).Nodup → (d.fields.map (·.name)).Nodup
  /-- Where the names are ASCII, no two fields have the same tag if no field is declared twice. -/
  tags_nodup : (∀ c ∈ t.columns, ∀ ch ∈ c.name.toList, ch.toNat < 0x80) →
    (d.fields.map (·.name)).Nodup → (d.fields.map (·.json)).Nodup
  /-- Neither happens to columns whose names are snake names and differ. -/
  snake_nodup : (∀ c ∈ t.columns, Naming.IsSnake c.name.toList) → (t.columns.map (·.name)).Nodup →
    (d.fields.map (·.name)).Nodup ∧ (d.fields.map (·.json)).Nodup

theorem Declares.of_columns (t : Table) : Declares t ⟨t.modelName, t.columns.map Column.field⟩ := by
  have hnames : (t.columns.map Column.field).map (·.name) = t.columns.map fun c => Naming.upperCamel c.name :=
    List.map_map
  have htags : (t.columns.map Column.field).map (·.json)
      = ((t.columns.map Column.field).map (·.name)).map fun name => some (utf8 (Naming.snake name).toList) := by
    rw [List.map_map, List.map_map, List.map_map]
    rfl
  have hapart : ((t.columns.map Column.field).map (·.json)).Nodup →
      ((t.columns.map Column.field).map (·.name)).Nodup := by
    rw [htags]
    exact List.Nodup.of_map _
  refine ⟨hnames, by rw [htags, List.map_map]; rfl, by rw [hnames], hapart, fun hascii h => ?_,
    fun hsnake h => ?_⟩
  · rw [htags]
    refine h.map_on fun name hname other hother hsame => ?_
    rw [hnames] at hname hother
    obtain ⟨c, hc, rfl⟩ := List.mem_map.1 hname
    obtain ⟨d, hd, rfl⟩ := List.mem_map.1 hother
    exact (Naming.snake_upperCamel_inj (hascii c hc) (hascii d hd)).1
      (utf8_toList_inj.1 (Option.some.inj hsame))
  · have htold : (t.columns.map Column.field).map (·.json)
        = (t.columns.map (·.name)).map fun name => some (utf8 name.toList) := by
      rw [List.map_map, List.map_map]
      refine List.map_congr_left fun c hc => ?_
      have hwire : c.wireName = c.name := Naming.snake_upperCamel (hsnake c hc)
      show some (utf8 c.wireName.toList) = some (utf8 c.name.toList)
      rw [hwire]
    have hjson : ((t.columns.map Column.field).map (·.json)).Nodup := by
      rw [htold]
      exact h.map fun name other hsame => utf8_toList_inj.1 (Option.some.inj hsame)
    exact ⟨hapart hjson, hjson⟩

/-- For all tables, options and days: the file of record types declares one struct per table, in order,
and each declares one field per column, called by the upper camel form of the column's name in Go and
by the snake form of that in JSON texts. So no field is declared twice just if the upper camel forms
differ, and over ASCII names the same goes for the names in JSON texts; for snake names it is enough
that the names differ. -/
theorem structs_declare (tables : List Table) (o : Options) (today : String) :
    List.Forall₂ Declares tables (structs (file tables o today).body) := by
  rw [structs_file, List.forall₂_map_right_iff, List.forall₂_same]
  exact fun t _ => Declares.of_columns t

/-- Two columns whose names differ by an underscore. -/
def doubledUnderscore : String := "CREATE TABLE t (a_b INT, a__b INT);"

/-- The table of two columns whose names differ by an underscore. -/
def doubledUnderscoreTable : Table where
  name := "t"
  columns := [{ name := "a_b", declaredType := "INT" }, { name := "a__b", declaredType := "INT" }]

/-- Names that differ by an underscore, which is not for the case of letters, are one field and one name
in JSON texts, and there is no warning of it. -/
theorem not_nodup_fields_doubledUnderscore :
    (Schema.parse doubledUnderscore).tables = [doubledUnderscoreTable]
      ∧ (Schema.parse doubledUnderscore).isClean = true
      ∧ doubledUnderscoreTable.columns.Pairwise (fun c d => sameLetters c.name d.name = false)
      ∧ ∀ (o : Options) (today : String),
        ∃ d ∈ structs (file [doubledUnderscoreTable] o today).body,
          ¬(d.fields.map (·.name)).Nodup ∧ ¬(d.fields.map (·.json)).Nodup := by
  have hparse : (Schema.parse doubledUnderscore).tables = [doubledUnderscoreTable]
      ∧ (Schema.parse doubledUnderscore).isClean = true := by decide +kernel
  refine ⟨hparse.1, hparse.2, by decide, fun o today => ?_⟩
  rw [structs_file]
  refine ⟨_, List.mem_singleton_self _, ?_⟩
  decide

end Record

end GoScaffold
