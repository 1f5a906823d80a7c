import GoScaffold.Proofs.Grammar.Yields

set_option autoImplicit false

/-! # The shapes of declarations

What stands where in the tree of a table declaration: the columns and constraints right below it, the
name and type of a column, the members of a key. Each lemma reads one rule of the grammar. -/

namespace GoScaffold.Grammar

open GoScaffold.Grammar.Expr (Yields HoldsOne yields_of_mem yields_phrase_iff eq_of_mem_pair)

namespace Ddl

/-! ## Scanners -/

@[simp] theorem cuts_kw (k : Keyword) : (kw k).Cuts := by
  rw [kw_eq]
  exact Scan.cuts_keyword k.words

@[simp] theorem cuts_mark (c : Char) : (mark c).Cuts := Scan.cuts_word [c]

@[simp] theorem cuts_list {e : Expr} : (list e).Cuts ↔ e.Cuts := by
  simp [list]

theorem cuts_tokens :
    identifier.Cuts ∧ bareIdent.Cuts ∧ typeName.Cuts ∧ stringLiteral.Cuts ∧ bitLiteral.Cuts
      ∧ number.Cuts ∧ signedNumber.Cuts ∧ parenExpr.Cuts ∧ currentTimestamp.Cuts ∧ endOfText.Cuts :=
  ⟨Scan.cuts_identifier, Scan.cuts_run1 _, Scan.cuts_typeName, Scan.cuts_stringLiteral,
    Scan.cuts_bitLiteral, Scan.cuts_number, Scan.cuts_signedNumber, Scan.cuts_parenExpr,
    Scan.cuts_currentTimestamp, Scan.cuts_atEnd⟩

theorem cuts_defaultValue : defaultValue.Cuts := by
  simp [cuts_tokens, defaultValue]

theorem cuts_defaultClause : defaultClause.Cuts := by
  simp [cuts_defaultValue, defaultClause]

theorem cuts_columnDef : columnDef.Cuts := by
  simp [cuts_tokens, columnDef, columnAttr, srid, storage, columnFormat,
    generatedClause, commentAttr, uniqueAttr, primaryAttr, onUpdate, autoIncrement, cuts_defaultClause,
    nullAttr, notNull, dataType, typeModifier, typeArgs, typeArg, references, refAction,
    keyParts, keyPart, visibility, checkDef, charsetClause, collateClause, tableName]

theorem cuts_tableConstraint : tableConstraint.Cuts := by
  simp [cuts_tokens, tableConstraint, foreignKeyDef, indexDef, uniqueKeyDef, primaryKeyDef,
    constraintName, indexOption, indexType, indexName, references, refAction, keyParts, keyPart,
    visibility, checkDef, tableName]

theorem cuts_createTable : createTable.Cuts := by
  simp [cuts_tokens, cuts_columnDef, cuts_tableConstraint, createTable, createDefinition,
    ifNotExists, tableName, tableOption, genericOption, optionValue, optionName, tableComment]

variable {text : List Char} {t : Tree}

/-! ## Tables -/

/-- A tree right below a declaration that is recorded as a constraint is one. -/
theorem yields_tableConstraint (h : Yields text createTable [t]) {u : Tree} (hu : u ∈ t.children)
    (hrule : u.rule = .tableConstraint) : Yields text tableConstraint [u] :=
  h.child hu hrule fun _ => eq_of_mem_pair

/-- A tree right below a declaration that is recorded as a column is one. -/
theorem yields_columnDef (h : Yields text createTable [t]) {u : Tree} (hu : u ∈ t.children)
    (hrule : u.rule = .columnDef) : Yields text columnDef [u] :=
  h.child hu hrule fun _ => eq_of_mem_pair

/-! ## Columns -/

/-- A column has one type. -/
theorem yields_dataType (h : Yields text columnDef [t]) :
    ∃ u, t.children.filter (·.rule == .dataType) = [u] ∧ Yields text dataType [u] :=
  HoldsOne.below (· == .dataType) h (.seq_right rfl (.seq_left (.phrase rfl) rfl))

/-- A type has one name. -/
theorem yields_typeName (h : Yields text dataType [t]) :
    ∃ u, t.children.filter (·.rule == .typeName) = [u] ∧ Yields text typeName [u] :=
  HoldsOne.below (· == .typeName) h (.seq_left (.token rfl) rfl)

/-- A tree right below a column that is recorded as a default is one. -/
theorem yields_defaultClause (h : Yields text columnDef [t]) {u : Tree} (hu : u ∈ t.children)
    (hrule : u.rule = .defaultClause) : Yields text defaultClause [u] :=
  h.child hu hrule fun _ => List.mem_singleton.1

/-- A default has one value. -/
theorem yields_defaultValue (h : Yields text defaultClause [t]) :
    ∃ u, t.children.filter (·.rule == .defaultValue) = [u] ∧ Yields text defaultValue [u] :=
  HoldsOne.below (· == .defaultValue) h (.seq_right rfl (.phrase rfl))

/-! ## Constraints -/

/-- But for its name, a constraint is one definition. -/
theorem yields_definition (h : Yields text tableConstraint [t]) :
    ∃ u, t.children.filter (·.rule != .constraintName) = [u]
      ∧ ((Yields text primaryKeyDef [u] ∨ Yields text uniqueKeyDef [u] ∨ Yields text foreignKeyDef [u]
        ∨ Yields text checkDef [u]) ∨ Yields text indexDef [u]) :=
  HoldsOne.below (· != .constraintName) h
    (.alt
      (.seq_right rfl (.alt (.phrase rfl) (.alt (.phrase rfl) (.alt (.phrase rfl) (.phrase rfl)))))
      (.phrase rfl))

/-- The definition of a key lists its members in one place. -/
theorem yields_keyParts (h : Yields text primaryKeyDef [t] ∨ Yields text uniqueKeyDef [t]
      ∨ Yields text indexDef [t]) :
    ∃ u, t.children.filter (·.rule == .keyParts) = [u] ∧ Yields text keyParts [u] := by
  rcases h with h | h | h
  · exact HoldsOne.below (· == .keyParts) h
      (.seq_right rfl (.seq_right rfl (.seq_right rfl (.seq_left (.phrase rfl) rfl))))
  · exact HoldsOne.below (· == .keyParts) h
      (.seq_right rfl (.seq_right rfl (.seq_right rfl (.seq_right rfl (.seq_left (.phrase rfl) rfl)))))
  · exact HoldsOne.below (· == .keyParts) h
      (.seq_right rfl (.seq_right rfl (.seq_right rfl (.seq_right rfl (.seq_left (.phrase rfl) rfl)))))

/-- The members of a key are all that is listed there, and there is one at least. -/
theorem yields_keyPart (h : Yields text keyParts [t]) :
    t.children ≠ [] ∧ ∀ u ∈ t.children, Yields text keyPart [u] := by
  have hinside := (yields_phrase_iff.1 h).2
  constructor
  · obtain ⟨us, vs, -, ⟨ws, xs, ⟨ys, zs, ⟨a, b, part, -, rfl⟩, -, rfl⟩, -, rfl⟩, hchildren⟩ := hinside
    simp [hchildren]
  · intro u hu
    obtain ⟨x, hx, -, hyields⟩ := yields_of_mem hinside hu
    rwa [eq_of_mem_pair (a := keyPart) hx] at hyields

/-- A member of a key has one name. -/
theorem yields_identifier (h : Yields text keyPart [t]) :
    ∃ u, t.children.filter (·.rule == .identifier) = [u] ∧ Yields text identifier [u] :=
  HoldsOne.below (· == .identifier) h (.seq_left (.token rfl) rfl)

end Ddl

end GoScaffold.Grammar
