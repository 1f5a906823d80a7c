import GoScaffold.Proofs.Grammar.Reached
import GoScaffold.Proofs.Grammar.Scanned
import GoScaffold.Proofs.Schema.Constraints

set_option autoImplicit false

/-! # Places in declarations

The grammar reads a copy of a declaration in capitals, and what it tells are places of that copy. They
are places of the declaration as it was written: capitals take the bytes of the letters they stand for.
So every span of an outline holds what the grammar matched there, up to case (`Span.Matches`), and
slicing it never comes out empty. A declaration that does not parse is handed back as it was written,
with a place of it (`readTable_placed`). -/

namespace GoScaffold

open Text

open Grammar

open Grammar.Expr (IsMatch eq_of_mem_pair)

/-! ## Spans -/

/-- The span holds a part of the text that takes at least one byte and begins and ends between
characters, and the scanner took the capitals of that part where they stand. -/
structure Span.Matches (text : List Char) (s : Scan) (span : Span) : Prop where
  start_lt_stop : span.start < span.stop
  stop_le : span.stop ≤ width text
  start_isValid : String.Pos.Raw.IsValid (String.ofList text) ⟨span.start⟩
  stop_isValid : String.Pos.Raw.IsValid (String.ofList text) ⟨span.stop⟩
  slice : ∃ before part after, text = before ++ (part ++ after) ∧ span.start = width before
    ∧ span.slice? text = some part ∧ s (raise part ++ raise after) = some (raise part, raise after)

variable {text : List Char} {s : Scan} {span : Span}

/-- A lexeme of the capitals is matched in the text. -/
theorem Span.Matches.of_isLexeme (hs : s.Bites) (h : IsLexeme (raise text) s span) :
    span.Matches text s := by
  obtain ⟨front, lexeme, rest, htext, hscan, rfl⟩ := h
  obtain ⟨before, more, rfl, rfl, hmore⟩ := List.map_eq_append_iff.1 htext
  obtain ⟨part, after, rfl, rfl, rfl⟩ := List.map_eq_append_iff.1 hmore
  have hfront : width (before.map Char.toUpper) = width before := width_raise before
  have hlexeme : width (part.map Char.toUpper) = width part := width_raise part
  have hpart : part ≠ [] := by
    rintro rfl
    exact hs _ _ hscan
  rw [hfront, hlexeme]
  have hstop : IsPlace (before ++ (part ++ after)) (width before + width part) := by
    rw [← width_append, ← List.append_assoc]
    exact isPlace_width ..
  refine ⟨?_, hstop.le, isPlace_iff.1 (isPlace_width ..), isPlace_iff.1 hstop, before, part, after, rfl,
    rfl, Span.slice?_part .., hscan⟩
  obtain ⟨c, cs, rfl⟩ := List.exists_cons_of_ne_nil hpart
  have hpos := Char.utf8Size_pos c
  simp only [width]
  omega

/-! ## Outlines -/

/-- Every span of the outline of a column is matched. -/
structure ColumnOutline.Placed (text : List Char) (o : ColumnOutline) : Prop where
  name : ∀ span ∈ o.name, span.Matches text Scan.identifier
  declaredType : ∀ span ∈ o.declaredType, span.Matches text Scan.typeName
  comment : ∀ span ∈ o.comment, span.Matches text Scan.stringLiteral
  default : ∀ span ∈ o.default, span.Matches text Scan.defaultValue

/-- Every span of the outline of a table is matched. -/
structure Outline.Placed (text : List Char) (o : Outline) : Prop where
  name : ∀ span ∈ o.name, span.Matches text Scan.identifier
  comment : ∀ span ∈ o.comment, span.Matches text Scan.stringLiteral
  columns : ∀ column ∈ o.columns, column.Placed text
  keys : ∀ key ∈ o.keys, ∀ span ∈ key.2, span.Matches text Scan.identifier

variable {e : Grammar.Expr} {r q : Rule} {t part : Tree}

/-- Where a phrase records one kind of token under a rule, the place of that part is matched. -/
theorem matches_of_mem_partSpan? (h : IsMatch (raise text) (.phrase r e) t) (hs : s.Bites)
    (honly : ∀ x ∈ e.under (· == q), x = .token q s) : ∀ span ∈ partSpan? t q, span.Matches text s := by
  intro span hspan
  obtain ⟨u, hu, rfl⟩ := Option.map_eq_some_iff.1 hspan
  obtain ⟨hmem, hrule⟩ := Tree.mem_children_of_child? hu
  exact .of_isLexeme hs (h.child _ hmem hrule honly).isLexeme_token

/-- What a part of a column adds is matched. -/
theorem ColumnOutline.Placed.add {o : ColumnOutline} (ho : o.Placed text) {column : Tree}
    (hcolumn : IsMatch (raise text) Ddl.columnDef column) (hpart : part ∈ column.children) :
    (o.add part).Placed text := by
  have hflags (flags : Flags) : Placed text { o with flags := flags } :=
    ⟨ho.name, ho.declaredType, ho.comment, ho.default⟩
  unfold ColumnOutline.add
  cases hrule : part.rule with
  | identifier =>
    have hname := hcolumn.child Ddl.identifier hpart hrule fun _ => List.mem_singleton.1
    have hmatches := Span.Matches.of_isLexeme Scan.bites_identifier hname.isLexeme_token
    simp only
    split
    · exact ⟨by simpa using hmatches, ho.declaredType, ho.comment, ho.default⟩
    · exact ho
  | dataType =>
    have htype := hcolumn.child Ddl.dataType hpart hrule fun _ => List.mem_singleton.1
    exact ⟨ho.name,
      matches_of_mem_partSpan? htype Scan.bites_typeName fun _ => List.mem_singleton.1,
      ho.comment, ho.default⟩
  | commentAttr =>
    have hcomment := hcolumn.child Ddl.commentAttr hpart hrule fun _ => List.mem_singleton.1
    exact ⟨ho.name, ho.declaredType,
      matches_of_mem_partSpan? hcomment Scan.bites_stringLiteral fun _ => List.mem_singleton.1,
      ho.default⟩
  | defaultClause =>
    have hclause := hcolumn.child Ddl.defaultClause hpart hrule fun _ => List.mem_singleton.1
    simp only
    split
    · exact ho
    next value hvalue =>
      obtain ⟨hmem, hrule⟩ := Tree.mem_children_of_child? hvalue
      have hdefault := hclause.child Ddl.defaultValue hmem hrule fun _ => List.mem_singleton.1
      have hmatches := Span.Matches.of_isLexeme Scan.bites_defaultValue
        (hdefault.isLexeme rfl Ddl.scans_defaultValue Scan.cuts_defaultValue)
      exact ⟨ho.name, ho.declaredType, ho.comment, by simpa using hmatches⟩
  | notNull | autoIncrement | onUpdate | primaryAttr | uniqueAttr => exact hflags _
  | _ => exact ho

theorem ColumnOutline.placed_ofTree {column : Tree}
    (hcolumn : IsMatch (raise text) Ddl.columnDef column) : (ofTree column).Placed text := by
  have hempty : Placed text {} := by constructor <;> simp
  exact List.foldlRecOn (motive := fun o => o.Placed text) column.children add hempty
    fun o ho part hpart => ho.add hcolumn hpart

/-- The members of a key are matched. -/
theorem matches_of_keyOutline? {constraint : Tree} {key : KeyKind × List Span}
    (hconstraint : IsMatch (raise text) Ddl.tableConstraint constraint)
    (hkey : keyOutline? constraint = some key) : ∀ span ∈ key.2, span.Matches text Scan.identifier := by
  rw [keyOutline?] at hkey
  split at hkey
  · cases hkey
  next definition hdefinition =>
    have hmem := List.mem_of_find?_eq_some hdefinition
    split at hkey
    next kind parts hkind hparts =>
      obtain rfl := Option.some.inj hkey
      obtain ⟨hchild, hrule⟩ := Tree.mem_children_of_child? hparts
      -- The definitions of the three kinds list their members in the same form.
      have hlist : IsMatch (raise text) Ddl.keyParts parts := by
        unfold keyKind? at hkind
        split at hkind
        next hprimary =>
          exact (hconstraint.child Ddl.primaryKeyDef hmem hprimary fun _ => List.mem_singleton.1).child
            Ddl.keyParts hchild hrule fun _ => List.mem_singleton.1
        next hunique =>
          exact (hconstraint.child Ddl.uniqueKeyDef hmem hunique fun _ => List.mem_singleton.1).child
            Ddl.keyParts hchild hrule fun _ => List.mem_singleton.1
        next hindex =>
          exact (hconstraint.child Ddl.indexDef hmem hindex fun _ => List.mem_singleton.1).child
            Ddl.keyParts hchild hrule fun _ => List.mem_singleton.1
        next => cases hkind
      intro span hspan
      obtain ⟨member, hmember, hspan⟩ := List.mem_filterMap.1 hspan
      have hpart : IsMatch (raise text) Ddl.keyPart member :=
        hlist.below (fun _ => true) hmember rfl fun _ => eq_of_mem_pair
      exact matches_of_mem_partSpan? hpart Scan.bites_identifier (fun _ => List.mem_singleton.1) span hspan
    · cases hkey

/-- What a part of a declaration adds is matched. -/
theorem Outline.Placed.add {o : Outline} (ho : o.Placed text) {tree : Tree}
    (htree : IsMatch (raise text) Ddl.createTable tree) (hpart : part ∈ tree.children) :
    (o.add part).Placed text := by
  unfold Outline.add
  cases hrule : part.rule with
  | tableName =>
    have hname := htree.child Ddl.tableName hpart hrule fun _ => List.mem_singleton.1
    refine ⟨fun span hspan => ?_, ho.comment, ho.columns, ho.keys⟩
    obtain ⟨u, hu, rfl⟩ := Option.map_eq_some_iff.1 hspan
    obtain ⟨hmem, hidentifier⟩ := List.mem_filter.1 (List.mem_of_getLast? hu)
    -- The names of the schema and of the table are of one form.
    have hlast := hname.child Ddl.identifier hmem (by simpa using hidentifier) fun _ => eq_of_mem_pair
    exact .of_isLexeme Scan.bites_identifier hlast.isLexeme_token
  | columnDef =>
    have hcolumn := htree.child Ddl.columnDef hpart hrule fun _ => eq_of_mem_pair
    refine ⟨ho.name, ho.comment, fun column hmem => ?_, ho.keys⟩
    rcases List.mem_append.1 hmem with hmem | hmem
    · exact ho.columns column hmem
    · obtain rfl := List.mem_singleton.1 hmem
      exact ColumnOutline.placed_ofTree hcolumn
  | tableConstraint =>
    have hconstraint := htree.child Ddl.tableConstraint hpart hrule fun _ => eq_of_mem_pair
    refine ⟨ho.name, ho.comment, ho.columns, fun key hmem => ?_⟩
    rcases List.mem_append.1 hmem with hmem | hmem
    · exact ho.keys key hmem
    · exact matches_of_keyOutline? hconstraint (by simpa using hmem)
  | tableComment =>
    have hcomment := htree.child Ddl.tableComment hpart hrule fun _ => List.mem_singleton.1
    exact ⟨ho.name,
      matches_of_mem_partSpan? hcomment Scan.bites_stringLiteral fun _ => List.mem_singleton.1,
      ho.columns, ho.keys⟩
  | _ => exact ho

theorem Outline.placed_ofTree {tree : Tree} (htree : IsMatch (raise text) Ddl.createTable tree) :
    (ofTree tree).Placed text := by
  have hempty : Placed text {} := by constructor <;> simp
  exact List.foldlRecOn (motive := fun o => o.Placed text) tree.children add hempty
    fun o ho part hpart => ho.add htree hpart

/-! ## Declarations -/

/-- A parse of a declaration that does not fail yields a tree. -/
theorem declarationTree_ne_ok_none (text : List Char) : declarationTree text ≠ .ok none := by
  rw [declarationTree]
  cases hparse : parse Ddl.createTable (raise text) with
  | error failure => simp [Except.map]
  | ok ts =>
    obtain ⟨stop, hfound⟩ := Expr.parse_eq_ok.1 hparse
    obtain ⟨us, -, rfl⟩ := Expr.found_phrase_iff.1 hfound
    simp [Except.map]

theorem isPlace_of_declarationTree {failure : Failure} (h : declarationTree text = .error failure) :
    IsPlace text failure.offset := by
  rw [declarationTree] at h
  cases hparse : parse Ddl.createTable (raise text) with
  | error other =>
    rw [hparse] at h
    obtain rfl := Except.error.inj h
    exact (isPlace_of_parse Ddl.cuts_createTable hparse).of_raise
  | ok ts =>
    rw [hparse] at h
    cases h

/-- Of a statement that declares a table, either the table is read and every span in its outline is
matched in the statement as it is written, or the error holds that statement and a position of it. -/
theorem readTable_placed {statement : String} (h : Sql.isTableDeclaration statement.toList = true) :
    (∃ tree, declarationTree statement.toList = .ok (some tree)
        ∧ (Outline.ofTree tree).Placed statement.toList
        ∧ ∃ t warnings, (Outline.ofTree tree).fill statement.toList = (t, warnings)
          ∧ readTable statement = .ok (some (t, warnings ++ duplicateWarnings t)))
      ∨ ∃ failure, readTable statement = .error ⟨statement, failure⟩
        ∧ failure.offset ≤ statement.utf8ByteSize
        ∧ String.Pos.Raw.IsValid statement ⟨failure.offset⟩ := by
  cases htree : declarationTree statement.toList with
  | error failure =>
    have hplace := isPlace_of_declarationTree htree
    have hle := hplace.le
    have hvalid := isPlace_iff.1 hplace
    rw [width_eq_utf8ByteSize, String.ofList_toList] at hle
    rw [String.ofList_toList] at hvalid
    exact Or.inr ⟨failure, by simp [readTable, h, htree], hle, hvalid⟩
  | ok found =>
    cases found with
    | none => exact absurd htree (declarationTree_ne_ok_none _)
    | some tree =>
      refine Or.inl ⟨tree, rfl, Outline.placed_ofTree (isMatch_declarationTree htree), _, _, rfl, ?_⟩
      exact readTable_eq_ok_some.2 ⟨h, tree, htree, rfl, rfl⟩

/-- A declaration with letters of several bytes in names and comments. -/
def umlauts : String :=
  "create table `Größe` (Maß int default -1 comment '€', key (Maß)) comment 'Ü';"

/-- Its spans, in bytes. -/
def umlautsOutline : Outline where
  name := some ⟨13, 22⟩
  comment := some ⟨79, 83⟩
  columns := [
    { name := some ⟨24, 28⟩, declaredType := some ⟨29, 32⟩, flags := { hasDefault := true },
      comment := some ⟨52, 57⟩, default := some ⟨41, 43⟩ }]
  keys := [(.index, [⟨64, 68⟩])]

/-- The column of this one has no type. -/
def untyped : String := "create table `Größe` (Maß, key (Maß))"

theorem readTable_placed_umlauts :
    Sql.isTableDeclaration umlauts.toList = true
      ∧ (∃ tree, declarationTree umlauts.toList = .ok (some tree) ∧ Outline.ofTree tree = umlautsOutline)
      ∧ umlautsOutline.Placed umlauts.toList
      ∧ Sql.isTableDeclaration untyped.toList = true
      ∧ ∃ failure, readTable untyped = .error ⟨untyped, failure⟩ ∧ failure.offset = 28
        ∧ String.Pos.Raw.IsValid untyped ⟨28⟩ := by
  have hdeclares : Sql.isTableDeclaration umlauts.toList = true := by decide +kernel
  have hdeclares' : Sql.isTableDeclaration untyped.toList = true := by decide +kernel
  have hoffset : (match readTable untyped with
      | .ok _ => none
      | .error e => some e.failure.offset) = some 28 := by decide +kernel
  obtain ⟨tree, htree, houtline⟩ : ∃ tree, declarationTree umlauts.toList = .ok (some tree)
      ∧ Outline.ofTree tree = umlautsOutline := by
    have heval : ((declarationTree umlauts.toList).toOption.bind id).map Outline.ofTree
        = some umlautsOutline := by decide +kernel
    obtain ⟨tree, hfound, houtline⟩ := Option.map_eq_some_iff.1 heval
    obtain ⟨_, hread, rfl⟩ := Option.bind_eq_some_iff.1 hfound
    exact ⟨tree, eq_ok_of_toOption hread, houtline⟩
  have hplaced : umlautsOutline.Placed umlauts.toList := by
    rcases readTable_placed hdeclares with ⟨other, hother, hplaced, -⟩ | ⟨failure, hread, -⟩
    · rw [htree] at hother
      obtain rfl := Option.some.inj (Except.ok.inj hother)
      exact houtline ▸ hplaced
    · rw [readTable_eq_ok_some.2 ⟨hdeclares, tree, htree, rfl, rfl⟩] at hread
      cases hread
  refine ⟨hdeclares, ⟨tree, htree, houtline⟩, hplaced, hdeclares', ?_⟩
  rcases readTable_placed hdeclares' with
    ⟨other, -, -, t, warnings, -, hread⟩ | ⟨failure, hread, -, hvalid⟩
  · rw [hread] at hoffset
    cases hoffset
  · rw [hread] at hoffset
    have hoffset : failure.offset = 28 := Option.some.inj hoffset
    exact ⟨failure, hread, hoffset, hoffset ▸ hvalid⟩

end GoScaffold
