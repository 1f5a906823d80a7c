import GoScaffold.Artifact.Basic
import GoScaffold.Proofs.Artifact.Pasted
import GoScaffold.Proofs.Artifact.References.Data
import GoScaffold.Proofs.Text.Lines
import GoScaffold.Schema.Basic

set_option autoImplicit false

/-! # Records line by line

The names and comments of a declaration are free texts. Into the lines of a record they come as
identifiers, as names on the wire, and as comments that are put on one line, and there they stay. But
without a comment on the table its name is told as it stands, and a line feed in a quoted name ends the
line of the comment. So a record has its lines and no others if and only if there is a comment on the
table or no line feed in its name (`emit_isRecord_iff`). -/

namespace GoScaffold

namespace Go

open Text

/-! ## Lines of files -/

/-- A line as it stands in the text, without the line feed at its end. -/
def Line.chars (l : Line) : List Char := List.replicate l.depth '\t' ++ l.text.toList

/-- The lines of code as text. -/
def textLines (c : Code) : List (List Char) := splitWhere (· == '\n') (render c).toList

theorem getLast?_render_concat (c : Code) (l : Line) : (render (c ++ [l])).toList.getLast? = some '\n' := by
  have hline : (render [l]).toList = (List.replicate l.depth '\t' ++ l.text.toList) ++ ['\n'] := by
    simp [render, Text.concat, Line.render]
  rw [render_append, String.toList_append, hline, ← List.append_assoc, List.getLast?_concat]

theorem textLines_cons (l : Line) (c : Code) :
    textLines (l :: c) = splitWhere (· == '\n') l.chars ++ textLines c := by
  have hnewline : "\n".toList = ['\n'] := by decide
  rw [textLines, toList_render_cons, String.toList_append, hnewline, List.append_assoc,
    List.singleton_append, ← List.append_assoc]
  exact splitWhere_append_cons (by decide) _ _

/-- Code without line feeds in its lines has its lines, and nothing after the last line feed. -/
theorem textLines_eq {c : Code} (h : ∀ l ∈ c, '\n' ∉ l.text.toList) :
    textLines c = c.map Line.chars ++ [[]] := by
  induction c with
  | nil => rfl
  | cons l c ih =>
    obtain ⟨hl, hc⟩ := List.forall_mem_cons.1 h
    have hchars : '\n' ∉ l.chars := by simp [Line.chars, hl]
    rw [textLines_cons, splitWhere_newline_of_notMem hchars, ih hc]
    rfl

/-- The lines of a declaration whose body is on one level. -/
theorem textLines_declaration {head : String} (hhead : '\n' ∉ head.toList) {texts : List String}
    (htexts : ∀ s ∈ texts, '\n' ∉ s.toList) :
    textLines (declaration head (Go.lines texts))
      = (head ++ " \x7b").toList :: texts.map (fun s => '\t' :: s.toList) ++ [['\x7d'], [], []] := by
  have hcode : declaration head (Go.lines texts)
      = ⟨0, head ++ " \x7b"⟩ :: (texts.map fun s => ⟨1, s⟩) ++ [⟨0, "\x7d"⟩, ⟨0, ""⟩] := by
    simp [declaration, block, enclosed, indent, Go.lines, line, gap]
  have hbreak : ∀ l ∈ declaration head (Go.lines texts), '\n' ∉ l.text.toList := by
    have hbody : ∀ l ∈ texts.map (fun s => (⟨1, s⟩ : Line)), '\n' ∉ l.text.toList := by
      intro l hl
      obtain ⟨s, hs, rfl⟩ := List.mem_map.1 hl
      exact htexts s hs
    rw [hcode, List.forall_mem_append, List.forall_mem_cons]
    exact ⟨⟨by simp [hhead], hbody⟩, by decide⟩
  rw [textLines_eq hbreak, hcode]
  simp [Line.chars]

theorem mem_dropBlankEnd_iff {c : Char} (cs : List Char) : c ∈ dropBlankEnd cs ↔ c ∈ cs := by
  induction cs with
  | nil => rfl
  | cons d cs ih =>
    rw [dropBlankEnd, List.mem_cons, ← ih]
    split
    · next hend =>
      rw [hend, List.mem_singleton]
      split
      · next hd => rw [List.mem_singleton, hd, or_self]
      · rw [List.mem_cons, List.mem_singleton]
    · exact List.mem_cons

/-- Only what stands at the end of a text is dropped from it. -/
theorem dropBlankEnd_append {c : Char} (hc : c ≠ '\n') {back : List Char} (hmem : c ∈ back)
    (front : List Char) : dropBlankEnd (front ++ back) = front ++ dropBlankEnd back := by
  induction front with
  | nil => rfl
  | cons d front ih =>
    have hnot : dropBlankEnd (front ++ back) ≠ ['\n'] := fun h => by
      have hleft : c ∈ dropBlankEnd (front ++ back) :=
        (mem_dropBlankEnd_iff _).2 (List.mem_append_right front hmem)
      rw [h, List.mem_singleton] at hleft
      exact hc hleft
    rw [List.cons_append, dropBlankEnd]
    split
    · next h => exact absurd h hnot
    · rw [ih, List.cons_append]

/-- The code of a file stands in it, but for the empty lines at the end. -/
theorem File.toList_render {f : File} {before code after : Code}
    (hcode : f.head ++ f.body = before ++ (code ++ after)) {c : Char} (hc : c ≠ '\n')
    (hmem : c ∈ (Go.render after).toList) :
    f.render.toList
      = (Go.render before).toList ++ ((Go.render code).toList ++ dropBlankEnd (Go.render after).toList) := by
  rw [File.render, endOnce, hcode, render_append, render_append, toList_onChars, String.toList_append,
    String.toList_append, ← List.append_assoc, dropBlankEnd_append hc hmem, List.append_assoc]

end Go

namespace Record

open Go Text

/-! ## Records -/

/-- A line that declares the field of a column: a tab, the name, the type and a tag in backticks; only a
comment may follow. -/
def IsFieldLine (c : Column) (l : List Char) : Prop :=
  ∃ (tag : String) (rest : List Char), '`' ∉ tag.toList ∧ (rest = [] ∨ " // ".toList <+: rest)
    ∧ l = ("\t" ++ c.fieldName ++ " " ++ c.goType ++ " `" ++ tag ++ "`").toList ++ rest

/-- The lines of a record: a comment, the line that opens the struct, a line per column and the line that
closes the struct. An empty line follows. -/
def IsRecord (t : Table) (ls : List (List Char)) : Prop :=
  ∃ (comment : List Char) (fields : List (List Char)),
    ("// " ++ t.modelName ++ " ").toList <+: comment ∧ List.Forall₂ IsFieldLine t.columns fields
      ∧ ls = comment :: ("type " ++ t.modelName ++ " struct \x7b").toList :: fields ++ [['\x7d'], [], []]

/-- The line feeds that come into the comment of a record. -/
def breaks (t : Table) : Nat :=
  match t.comment with
  | some _ => 0
  | none => t.name.toList.count '\n'

theorem breaks_eq_zero_iff {t : Table} : breaks t = 0 ↔ (t.comment = none → '\n' ∉ t.name.toList) := by
  unfold breaks
  cases t.comment with
  | some _ => simp
  | none => simp [List.count_eq_zero]

theorem newline_notMem_upperCamel (s : String) : '\n' ∉ (Naming.upperCamel s).toList := fun h =>
  absurd (isPlain_upperCamel s _ h) (by decide)

theorem newline_notMem_oneLine (s : String) : '\n' ∉ (oneLine s).toList := fun h =>
  absurd (oneLine_keeps s _ h) (by decide)

theorem newline_notMem_goType (c : Column) : '\n' ∉ c.goType.toList := by
  have hcategory : '\n' ∉ c.category.goType.toList := by
    cases c.category <;> decide
  rw [Column.goType, nullable]
  split
  · simp [hcategory]
  · exact hcategory

variable {c : Column} {isKey : Bool}

theorem newline_notMem_fieldLine : '\n' ∉ (fieldLine c isKey .plain).toList := by
  have hfield : '\n' ∉ c.fieldName.toList := newline_notMem_upperCamel c.name
  have hwire : '\n' ∉ c.wireName.toList := fun h => absurd (isPlain_wireName c _ h) (by decide)
  have htype : '\n' ∉ c.goType.toList := newline_notMem_goType c
  unfold fieldLine
  cases c.comment with
  | none => simp [fieldTag, hfield, hwire, htype]
  | some comment => simp [fieldTag, hfield, hwire, htype, newline_notMem_oneLine]

theorem isFieldLine_fieldLine : IsFieldLine c ('\t' :: (fieldLine c isKey .plain).toList) := by
  have htag : '`' ∉ (fieldTag c isKey .plain).toList := tick_not_mem_fieldTag (by simp)
  unfold fieldLine
  cases c.comment with
  | none => exact ⟨fieldTag c isKey .plain, [], htag, .inl rfl, by simp⟩
  | some comment =>
    exact ⟨fieldTag c isKey .plain, (" // " ++ oneLine comment).toList, htag, .inr (by simp), by simp⟩

theorem count_structComment (t : Table) : (structComment t).toList.count '\n' = breaks t := by
  have hmodel : t.modelName.toList.count '\n' = 0 := List.count_eq_zero.2 (newline_notMem_upperCamel t.name)
  unfold structComment breaks
  cases t.comment with
  | some comment =>
    have hcomment := List.count_eq_zero.2 (newline_notMem_oneLine comment)
    simp [hmodel, hcomment]
  | none => simp [hmodel]

theorem prefix_structComment (t : Table) :
    ("// " ++ t.modelName ++ " ").toList <+: (structComment t).toList := by
  unfold structComment
  cases t.comment <;> simp

/-- The lines of a record after its comment. -/
def structLines (t : Table) : List (List Char) :=
  ("type " ++ t.modelName ++ " struct \x7b").toList
    :: t.columns.map (fun c => '\t' :: (fieldLine c (isKeyColumn t c) .plain).toList) ++ [['\x7d'], [], []]

theorem textLines_structCode (t : Table) :
    textLines (structCode t .plain) = splitWhere (· == '\n') (structComment t).toList ++ structLines t := by
  have hhead : '\n' ∉ ("type " ++ t.modelName ++ " struct").toList := by
    have hmodel : '\n' ∉ t.modelName.toList := newline_notMem_upperCamel t.name
    simp [hmodel]
  have hfields : ∀ s ∈ t.columns.map (fun c => fieldLine c (isKeyColumn t c) .plain), '\n' ∉ s.toList := by
    intro s hs
    obtain ⟨c, -, rfl⟩ := List.mem_map.1 hs
    exact newline_notMem_fieldLine
  rw [structCode, line, List.singleton_append, textLines_cons, textLines_declaration hhead hfields,
    structLines, List.map_map]
  simp [Line.chars, Function.comp_def]

/-- A record has one line per column, five others, and one more for each line feed that comes into its
comment. -/
theorem length_textLines_structCode (t : Table) :
    (textLines (structCode t .plain)).length = t.columns.length + 5 + breaks t := by
  rw [textLines_structCode, List.length_append, length_splitWhere_newline, count_structComment, structLines]
  simp only [List.length_append, List.length_cons, List.length_map, List.length_nil]
  omega

theorem IsRecord.length_eq {t : Table} {ls : List (List Char)} (h : IsRecord t ls) :
    ls.length = t.columns.length + 5 := by
  obtain ⟨comment, fields, -, hfields, rfl⟩ := h
  have hlength := hfields.length_eq
  simp only [List.length_append, List.length_cons, List.length_nil]
  omega

theorem isRecord_structCode_iff (t : Table) :
    IsRecord t (textLines (structCode t .plain)) ↔ (t.comment = none → '\n' ∉ t.name.toList) := by
  rw [← breaks_eq_zero_iff]
  constructor
  · intro h
    have hlength := h.length_eq
    rw [length_textLines_structCode] at hlength
    omega
  · intro h
    rw [← count_structComment, List.count_eq_zero] at h
    refine ⟨(structComment t).toList,
      t.columns.map fun c => '\t' :: (fieldLine c (isKeyColumn t c) .plain).toList,
      prefix_structComment t, ?_, ?_⟩
    · rw [List.forall₂_map_right_iff, List.forall₂_same]
      exact fun c _ => isFieldLine_fieldLine
    · rw [textLines_structCode, splitWhere_newline_of_notMem h]
      rfl

/-! ## Records in files -/

variable {tables : List Table} {o : Options} {t : Table}

theorem exists_code_file (hstyle : o.style = .plain) (ht : t ∈ tables) (today : String) :
    ∃ front back : Code, (file tables o today).head ++ (file tables o today).body
      = (front ++ heading t.modelName) ++ (structCode t .plain ++ (stringCode t ++ back)) := by
  obtain ⟨earlier, later, htables⟩ := List.append_of_mem ht
  have hflat : tables.flatMap (tableCode · .plain) = earlier.flatMap (tableCode · .plain)
      ++ (heading t.modelName ++ structCode t .plain ++ stringCode t
        ++ later.flatMap (tableCode · .plain)) := by
    rw [htables, List.flatMap_append, List.flatMap_cons, tableCode, List.append_nil]
  have hbody : (file tables o today).body = tables.flatMap (tableCode · .plain)
      ++ if tables.any (·.columns.any (·.isPointer)) then derefCode else [] := by
    rw [← hstyle]
    rfl
  refine ⟨(file tables o today).head ++ earlier.flatMap (tableCode · .plain),
    later.flatMap (tableCode · .plain)
      ++ if tables.any (·.columns.any (·.isPointer)) then derefCode else [], ?_⟩
  rw [hbody, hflat]
  simp only [List.append_assoc]

/-- In the plain style the record of a table stands in the file, from the beginning of a line. -/
theorem exists_render_file (hstyle : o.style = .plain) (ht : t ∈ tables) (today : String) :
    ∃ before after : List Char, before.getLast? = some '\n'
      ∧ (file tables o today).render.toList = before ++ ((render (structCode t .plain)).toList ++ after) := by
  obtain ⟨front, back, hcode⟩ := exists_code_file hstyle ht today
  have hletter : 'f' ∈ (render (stringCode t ++ back)).toList := by
    obtain ⟨body, hhead⟩ : ∃ body, stringCode t ++ back
        = ⟨0, "func (s *" ++ t.modelName ++ ") String() string" ++ " \x7b"⟩ :: body := ⟨_, rfl⟩
    rw [hhead, toList_render_cons]
    simp
  refine ⟨_, _, ?_, File.toList_render hcode (by decide) hletter⟩
  rw [heading, gap, line, ← List.append_assoc]
  exact getLast?_render_concat _ _

/-- For every table in every file of the plain style. Its record stands in the file from the beginning
of a line, and has a comment line, a line that opens the struct, a line per column and a line that closes it,
if and only if there is a comment on the table or no line feed in its name. Otherwise each line feed of the
name breaks the comment into one more line. -/
theorem emit_isRecord_iff (hstyle : o.style = .plain) (ht : t ∈ tables) (today : String) :
    (∃ before after : List Char, before.getLast? = some '\n'
        ∧ (Target.model.emit tables o today).toList
          = before ++ ((render (structCode t .plain)).toList ++ after))
      ∧ (IsRecord t (textLines (structCode t .plain)) ↔ (t.comment = none → '\n' ∉ t.name.toList))
      ∧ (textLines (structCode t .plain)).length = t.columns.length + 5 + breaks t :=
  ⟨exists_render_file hstyle ht today, isRecord_structCode_iff t, length_textLines_structCode t⟩

/-- A table with line feeds and a backtick in its names and line feeds in its comments. -/
def brokenNames : Table where
  name := "a\n`b"
  columns := [⟨"x\n`y", "INT", {}, some "u\r\nv", none⟩, ⟨"z", "DATE", {}, none, none⟩]
  comment := some "one\ntwo\n"

theorem emit_isRecord_iff_brokenNames :
    ({} : Options).style = .plain ∧ brokenNames ∈ [brokenNames]
      ∧ (∃ before after : List Char, before.getLast? = some '\n'
        ∧ (Target.model.emit [brokenNames] {} "2024-01-01").toList
          = before ++ ((render (structCode brokenNames .plain)).toList ++ after))
      ∧ IsRecord brokenNames (textLines (structCode brokenNames .plain))
      ∧ (textLines (structCode brokenNames .plain)).length = 7 := by
  have hstyle : ({} : Options).style = .plain := rfl
  have hmem : brokenNames ∈ [brokenNames] := List.mem_singleton_self brokenNames
  obtain ⟨hplace, hrecord, hlength⟩ := emit_isRecord_iff hstyle hmem "2024-01-01"
  exact ⟨hstyle, hmem, hplace, hrecord.2 (by simp [brokenNames]), hlength⟩

/-- A table with a line feed in its quoted name, as it is read from its declaration: its record has a line
too many. -/
theorem not_isRecord_quotedName :
    ¬∀ (text : String), ∀ t ∈ (Schema.parse text).tables,
      IsRecord t (textLines (structCode t .plain)) := by
  intro h
  have htables : (Schema.parse "CREATE TABLE `a\nb` (id INT);").tables
      = [⟨"a\nb", [⟨"id", "INT", {}, none, none⟩], [], [], [], none⟩] := by
    decide +kernel
  have hrecord := h "CREATE TABLE `a\nb` (id INT);" _ (by rw [htables]; exact List.mem_singleton_self _)
  exact absurd ((isRecord_structCode_iff _).1 hrecord rfl) (by decide)

end Record

end GoScaffold
