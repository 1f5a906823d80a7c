import GoScaffold.Proofs.Artifact.Declared
import GoScaffold.Proofs.Artifact.Keys
import GoScaffold.Proofs.Schema.Duplicates
import Mathlib.Data.List.Nodup

set_option autoImplicit false

/-! # Names declared twice

The data access functions of a table are told apart by a verb before the model and a suffix behind
it (`Accessor.name_eq_iff`), and no part of a name says where it ends. So two functions share a name
where two groups have one suffix, or two lists (`Access.nodup_names_iff`). The warnings of a schema
only tell of unique groups with the same columns, and both may happen without any
(`Schema.nodup_names_iff_of_isClean`). -/

namespace GoScaffold

open Go Text

/-! ## Lists without repetition -/

/-- Maps that tell the same elements apart leave a list without repetition alike. -/
theorem nodup_map_congr {α β γ : Type} {f : α → β} {g : α → γ} {xs : List α}
    (h : ∀ x y, f x = f y ↔ g x = g y) : (xs.map f).Nodup ↔ (xs.map g).Nodup := by
  rw [List.Nodup, List.Nodup, List.pairwise_map, List.pairwise_map]
  exact List.Pairwise.iff fun {x y} => not_congr (h x y)

/-- Parts that a map tells apart share no element. -/
theorem nodup_append_of_map {α β : Type} (f : α → β) {xs ys : List α}
    (h : ∀ x ∈ xs, ∀ y ∈ ys, f x ≠ f y) : (xs ++ ys).Nodup ↔ xs.Nodup ∧ ys.Nodup := by
  rw [List.nodup_append]
  exact ⟨fun ⟨hxs, hys, _⟩ => ⟨hxs, hys⟩,
    fun ⟨hxs, hys⟩ => ⟨hxs, hys, fun x hx y hy hsame => h x hx y hy (by rw [hsame])⟩⟩

/-- Labels on the value of each element, of which all elements have one, repeat nothing if no value is
repeated. -/
theorem nodup_flatMap_labels {α β γ : Type} {labels : α → List β} (hlabels : ∀ x, (labels x).Nodup)
    {label : β} (hlabel : ∀ x, label ∈ labels x) (value : α → γ) (xs : List α) :
    (xs.flatMap fun x => (labels x).map (·, value x)).Nodup ↔ (xs.map value).Nodup := by
  have hdisjoint (x y : α) :
      List.Disjoint ((labels x).map (·, value x)) ((labels y).map (·, value y)) ↔ value x ≠ value y := by
    constructor
    · intro h hsame
      have hmem (z : α) : (label, value z) ∈ (labels z).map (·, value z) :=
        List.mem_map_of_mem (hlabel z)
      exact h (hmem x) (hsame ▸ hmem y)
    · intro h p hx hy
      obtain ⟨_, -, rfl⟩ := List.mem_map.1 hx
      obtain ⟨_, -, hp⟩ := List.mem_map.1 hy
      exact h (Prod.mk.inj hp).2.symm
  have heach (x : α) : ((labels x).map (·, value x)).Nodup :=
    (hlabels x).map fun _ _ h => (Prod.mk.inj h).1
  rw [List.nodup_flatMap, List.nodup_iff_pairwise_ne (l := xs.map value), List.pairwise_map]
  constructor
  · intro h
    exact h.2.imp fun {x y} hxy => (hdisjoint x y).1 hxy
  · intro h
    exact ⟨fun x _ => heach x, h.imp fun {x y} hxy => (hdisjoint x y).2 hxy⟩

/-! ## Verbs and suffixes -/

namespace Accessor

/-- One verb is the front of another only where one is for single rows and the other for lists. -/
theorem query_of_compatible : ∀ v ∈ verbs, ∀ w ∈ verbs, compatible v.toList w.toList = true →
    v = w ∨ (v = "Query" ∧ w = "QueryMany") ∨ (v = "QueryMany" ∧ w = "Query") := by decide

theorem suffix_of_verb_eq_query {a : Accessor} (h : a.verb = "Query") :
    ∃ s, a.suffix = "By" ++ s := by
  cases a with
  | get key => exact ⟨_, rfl⟩
  | create | update | listBy | list | delete | mark | restore => simp [verb] at h

/-- The name of a function for single rows is not that of a list, whatever the model is called. -/
theorem name_ne_of_query {model : String} {a b : Accessor} (ha : a.verb = "Query")
    (hb : b.verb = "QueryMany") : a.name model ≠ b.name model := by
  obtain ⟨s, hs⟩ := suffix_of_verb_eq_query ha
  rw [name_eq_append, name_eq_append, ha, hb, hs]
  intro h
  have hchars := congrArg String.toList h
  have hshifted : "Many".toList ++ (model.toList ++ b.suffix.toList)
      = model.toList ++ 'B' :: ('y' :: s.toList) := by
    simpa using hchars.symm
  exact absurd (mem_of_shifted (by decide) hshifted) (by decide)

/-- What tells a function of a table from its others. -/
def label (a : Accessor) : String × String := (a.verb, a.suffix)

/-- Two functions of a table share their name if and only if they share verb and suffix. -/
theorem name_eq_iff (model : String) (a b : Accessor) :
    a.name model = b.name model ↔ a.label = b.label := by
  rw [label, label, Prod.mk.injEq]
  constructor
  · intro h
    have hchars : a.verb.toList ++ (model ++ a.suffix).toList
        = b.verb.toList ++ (model ++ b.suffix).toList := by
      rw [← String.toList_append, ← String.toList_append, ← name_eq_append, ← name_eq_append, h]
    have hverb : a.verb = b.verb := by
      rcases query_of_compatible _ a.verb_mem_verbs _ b.verb_mem_verbs
        (compatible_of_append hchars) with hsame | ⟨ha, hb⟩ | ⟨ha, hb⟩
      · exact hsame
      · exact absurd h (name_ne_of_query ha hb)
      · exact absurd h.symm (name_ne_of_query hb ha)
    rw [hverb, List.append_cancel_left_eq, String.toList_append, String.toList_append,
      List.append_cancel_left_eq, String.toList_inj] at hchars
    exact ⟨hverb, hchars⟩
  · rintro ⟨hverb, hsuffix⟩
    rw [name_eq_append, name_eq_append, hverb, hsuffix]

/-! ## The functions of a table -/

/-- The suffixes of the lists of a table, in order. -/
def listSuffixes (t : Table) (o : Options) : List String :=
  (ListOrder.ofTable t o).flatMap fun order =>
    t.keys.index.map (fun key => "By" ++ groupSuffix key ++ order.suffix) ++ [order.suffix]

/-- The labels of functions with these verbs for each unique group of a table. -/
def keyedLabels (t : Table) (verbs : List String) : List (String × String) :=
  t.keys.unique.flatMap fun key => verbs.map (·, "By" ++ groupSuffix key)

theorem nodup_by_iff (keys : List (List Column)) :
    (keys.map fun key => "By" ++ groupSuffix key).Nodup ↔ (keys.map groupSuffix).Nodup := by
  refine nodup_map_congr fun key other => ?_
  rw [← String.toList_inj, String.toList_append, String.toList_append, List.append_cancel_left_eq,
    String.toList_inj]

theorem nodup_keyedLabels_iff (t : Table) {verbs : List String} (hverbs : verbs.Nodup)
    (hne : verbs ≠ []) : (keyedLabels t verbs).Nodup ↔ (t.keys.unique.map groupSuffix).Nodup := by
  obtain ⟨verb, hverb⟩ := List.exists_mem_of_ne_nil verbs hne
  rw [keyedLabels, nodup_flatMap_labels (fun _ => hverbs) (fun _ => hverb), nodup_by_iff]

theorem fst_mem_of_mem_keyedLabels {t : Table} {verbs : List String} {l : String × String}
    (h : l ∈ keyedLabels t verbs) : l.1 ∈ verbs := by
  obtain ⟨key, -, h⟩ := List.mem_flatMap.1 h
  obtain ⟨v, hv, rfl⟩ := List.mem_map.1 h
  exact hv

theorem labels_lists (t : Table) (o : Options) :
    ((ListOrder.ofTable t o).flatMap fun order =>
        t.keys.index.map (fun key => listBy key order) ++ [list order]).map label
      = (listSuffixes t o).map ("QueryMany", ·) := by
  rw [listSuffixes, List.map_flatMap, List.map_flatMap]
  simp [label, verb, suffix, Function.comp_def]

/-- The functions that delete have the same verbs for every key. -/
theorem exists_labels_deletions (t : Table) (o : Options) :
    ∃ verbs ∈ [["Delete"], ["Delete", "UnDelete"]],
      ∀ key, (deletions t o key).map label = verbs.map (·, "By" ++ groupSuffix key) := by
  unfold deletions
  cases markColumn? t o.logicalDelete with
  | none => exact ⟨["Delete"], by simp, fun key => rfl⟩
  | some mark =>
    obtain ⟨c, d⟩ := mark
    cases hrestore : d.restoreLiteral? c with
    | none => exact ⟨["Delete"], by simp, fun key => by simp [hrestore, label, verb, suffix]⟩
    | some literal =>
      exact ⟨["Delete", "UnDelete"], by simp, fun key => by simp [hrestore, label, verb, suffix]⟩

theorem exists_labels_ofTable (t : Table) (o : Options) :
    ∃ verbs ∈ [["Delete"], ["Delete", "UnDelete"]], (ofTable t o).map label
      = ("Create", "") :: (keyedLabels t ["Update", "Query"]
        ++ ((listSuffixes t o).map ("QueryMany", ·) ++ keyedLabels t verbs)) := by
  obtain ⟨verbs, hverbs, hdeletions⟩ := exists_labels_deletions t o
  refine ⟨verbs, hverbs, ?_⟩
  rw [ofTable, List.map_append, List.map_append, List.map_append, labels_lists, List.map_flatMap,
    List.map_flatMap, List.append_assoc, List.append_assoc]
  simp only [hdeletions]
  rfl

/-- The labels of the functions of a table repeat nothing if and only if the suffixes of its unique
groups do not, and those of its lists do not. -/
theorem nodup_labels_iff (t : Table) (o : Options) :
    ((ofTable t o).map label).Nodup
      ↔ (t.keys.unique.map groupSuffix).Nodup ∧ (listSuffixes t o).Nodup := by
  obtain ⟨verbs, hverbs, hlabels⟩ := exists_labels_ofTable t o
  obtain ⟨hnodup, hne, hother⟩ : verbs.Nodup ∧ verbs ≠ []
      ∧ ∀ v ∈ verbs, v ∉ ["Create", "Update", "Query"] ∧ v ≠ "QueryMany" := by
    revert hverbs
    simp only [List.mem_cons, List.not_mem_nil, or_false]
    rintro (rfl | rfl) <;> decide
  have hlists : ((listSuffixes t o).map ("QueryMany", ·)).Nodup ↔ (listSuffixes t o).Nodup :=
    List.nodup_map_iff fun _ _ h => (Prod.mk.inj h).2
  -- The verb of a label tells which part of the list it stands in.
  have hlist : ∀ l ∈ (listSuffixes t o).map ("QueryMany", ·), l.1 = "QueryMany" := by
    intro l hl
    obtain ⟨s, -, rfl⟩ := List.mem_map.1 hl
    rfl
  have hdelete : ∀ l ∈ keyedLabels t verbs,
      l.1 ∉ ["Create", "Update", "Query"] ∧ l.1 ≠ "QueryMany" :=
    fun l hl => hother _ (fst_mem_of_mem_keyedLabels hl)
  have htail : ∀ l ∈ (listSuffixes t o).map ("QueryMany", ·) ++ keyedLabels t verbs,
      l.1 ∉ ["Create", "Update", "Query"] := by
    intro l hl
    rcases List.mem_append.1 hl with hl | hl
    · rw [hlist l hl]
      decide
    · exact (hdelete l hl).1
  have hcreate : ("Create", "") ∉ keyedLabels t ["Update", "Query"]
      ++ ((listSuffixes t o).map ("QueryMany", ·) ++ keyedLabels t verbs) := by
    intro hl
    rcases List.mem_append.1 hl with hl | hl
    · exact absurd (fst_mem_of_mem_keyedLabels hl) (by decide)
    · exact htail _ hl (by simp)
  rw [hlabels, List.nodup_cons, and_iff_right hcreate,
    nodup_append_of_map Prod.fst fun l hl m hm hsame => ?_,
    nodup_append_of_map Prod.fst fun l hl m hm hsame => ?_,
    nodup_keyedLabels_iff t (by decide) (by simp), nodup_keyedLabels_iff t hnodup hne, hlists]
  · tauto
  · exact (hdelete m hm).2 (hsame ▸ hlist l hl)
  · refine htail m hm ?_
    rw [← hsame]
    exact List.mem_cons_of_mem _ (fst_mem_of_mem_keyedLabels hl)

end Accessor

/-! ## The functions of the file -/

namespace Access

theorem isName_of_mem_signatures {tables : List Table} {o : Options} {s : Signature}
    (h : s ∈ signatures tables o) : IsName s.name ∧ s.receiver = none := by
  rcases List.mem_append.1 h with hshared | htables
  · have hall : ∀ s ∈ sharedSignatures o.convention (rounds tables o),
        IsName s.name ∧ s.receiver = none := by
      cases o.convention <;> cases rounds tables o <;> decide
    exact hall s hshared
  · obtain ⟨t, -, ht⟩ := List.mem_flatMap.1 htables
    rw [tableSignatures, List.mem_cons, List.mem_cons] at ht
    rcases ht with rfl | rfl | ht
    · exact ⟨isName_append (by decide) (isName_modelName t), rfl⟩
    · exact ⟨isName_append (by decide) (isName_modelName t), rfl⟩
    · obtain ⟨a, -, rfl⟩ := List.mem_map.1 ht
      exact ⟨a.isName_name (isName_modelName t), rfl⟩

/-- The names of the functions of the file are those of its signatures. -/
theorem names_file (tables : List Table) (o : Options) (today : String) :
    (functions (file tables o today).body).map (·.name) = (signatures tables o).map (·.name) := by
  have hname (fs : List FuncDecl) :
      fs.map (·.name) = (fs.map (·.head)).map fun head => (FuncDecl.mk head []).name := by
    rw [List.map_map]
    rfl
  rw [hname, heads_file, List.map_map]
  refine List.map_congr_left fun s hs => ?_
  obtain ⟨hisName, hreceiver⟩ := isName_of_mem_signatures hs
  exact FuncDecl.name_declare hisName hreceiver []

/-- Names of accessors begin with a capital. -/
theorem head?_name_mem (model : String) (a : Accessor) :
    (a.name model).toList.head? ∈ [some 'C', some 'U', some 'Q', some 'D'] := by
  cases a <;> simp [Accessor.name]

/-- The names of the functions of the file for a table that are no accessors. -/
def helperNames (t : Table) (o : Options) : List String :=
  (sharedSignatures o.convention (rounds [t] o)).map (·.name)
    ++ ["scan" ++ t.modelName, "queryMany" ++ t.modelName]

theorem names_signatures (t : Table) (o : Options) :
    (signatures [t] o).map (·.name)
      = helperNames t o ++ (Accessor.ofTable t o).map (·.name t.modelName) := by
  simp [helperNames, signatures, tableSignatures, scanSignature, pageSignature, Accessor.signature,
    Function.comp_def]

theorem heads_helperNames (t : Table) (o : Options) :
    (helperNames t o).map (·.toList.head?)
      = (sharedSignatures o.convention (rounds [t] o)).map (·.name.toList.head?)
        ++ [some 's', some 'q'] := by
  simp [helperNames, Function.comp_def]

/-- The other functions differ by the first characters of their names. -/
theorem nodup_helperNames (t : Table) (o : Options) : (helperNames t o).Nodup := by
  refine List.Nodup.of_map (·.toList.head?) ?_
  rw [heads_helperNames]
  cases o.convention <;> cases rounds [t] o <;> decide

/-- The names of the other functions begin with no capital. -/
theorem head?_notMem_of_mem_helperNames {t : Table} {o : Options} {name : String}
    (h : name ∈ helperNames t o) :
    name.toList.head? ∉ [some 'C', some 'U', some 'Q', some 'D'] := by
  have hall : ∀ d ∈ (helperNames t o).map (·.toList.head?),
      d ∉ [some 'C', some 'U', some 'Q', some 'D'] := by
    rw [heads_helperNames]
    cases o.convention <;> cases rounds [t] o <;> decide
  exact hall _ (List.mem_map_of_mem h)

/-- The names of the functions for a table are pairwise different if and only if the suffixes of its
unique groups are, and those of its lists are. -/
theorem nodup_names_iff (t : Table) (o : Options) (today : String) :
    ((functions (file [t] o today).body).map (·.name)).Nodup
      ↔ (t.keys.unique.map groupSuffix).Nodup ∧ (Accessor.listSuffixes t o).Nodup := by
  have hapart : ∀ name ∈ helperNames t o,
      ∀ other ∈ (Accessor.ofTable t o).map (·.name t.modelName),
        name.toList.head? ≠ other.toList.head? := by
    intro name hname other hother hsame
    obtain ⟨a, -, rfl⟩ := List.mem_map.1 hother
    exact head?_notMem_of_mem_helperNames hname (hsame ▸ head?_name_mem t.modelName a)
  rw [names_file, names_signatures, nodup_append_of_map (·.toList.head?) hapart,
    and_iff_right (nodup_helperNames t o), nodup_map_congr (Accessor.name_eq_iff t.modelName)]
  exact Accessor.nodup_labels_iff t o

/-- Two columns give the suffix of one. -/
example : groupSuffix [⟨"a", "INT", {}, none, none⟩, ⟨"b", "INT", {}, none, none⟩]
    = groupSuffix [⟨"aB", "INT", {}, none, none⟩] := by decide

end Access

/-! ## Clean schemas -/

/-- Where no order is asked for, lists are told apart by their groups. -/
theorem nodup_listSuffixes_iff_of_unordered {t : Table} {o : Options}
    (h : ListOrder.ofTable t o = [.unordered]) :
    (Accessor.listSuffixes t o).Nodup ↔ (t.keys.index.map groupSuffix).Nodup := by
  have hsuffixes : Accessor.listSuffixes t o
      = t.keys.index.map (fun key => "By" ++ groupSuffix key) ++ [""] := by
    rw [Accessor.listSuffixes, h, List.flatMap_singleton]
    simp [ListOrder.suffix]
  have hne : ∀ s ∈ t.keys.index.map (fun key => "By" ++ groupSuffix key), ∀ s' ∈ [""], s ≠ s' := by
    intro s hs s' hs'
    obtain ⟨key, -, rfl⟩ := List.mem_map.1 hs
    rw [List.mem_singleton.1 hs', ← String.toList_inj.ne]
    simp
  rw [hsuffixes, nodup_append_of_map id hne, and_iff_left (List.nodup_singleton ""),
    Accessor.nodup_by_iff]

/-- What the names of the functions for a table are, if it is the only one of a schema text without
warnings and its fields differ. No two of its unique groups have the same columns. The functions have
pairwise different names if and only if the suffixes of the unique groups differ, and those of the
lists; they do so where every group has one column, no index group is repeated and no order is asked
for. -/
theorem Schema.nodup_names_iff_of_isClean {text : String} {t : Table}
    (htables : (parse text).tables = [t]) (hclean : (parse text).isClean = true)
    (hfields : (t.columns.map (·.fieldName)).Nodup) (o : Options) (today : String) :
    (t.keys.unique.map (List.map (·.name))).Nodup
      ∧ (((functions (Access.file [t] o today).body).map (·.name)).Nodup
        ↔ (t.keys.unique.map groupSuffix).Nodup ∧ (Accessor.listSuffixes t o).Nodup)
      ∧ ((∀ key ∈ t.keys.unique ++ t.keys.index, key.length = 1) →
        (t.keys.index.map (List.map (·.name))).Nodup → ListOrder.ofTable t o = [.unordered] →
          ((functions (Access.file [t] o today).body).map (·.name)).Nodup) := by
  have hunique := nodup_names_unique (t := t) (by simp [htables]) hclean
  refine ⟨hunique, Access.nodup_names_iff t o today, fun hsingle hindex horder => ?_⟩
  rw [Access.nodup_names_iff, nodup_listSuffixes_iff_of_unordered horder]
  constructor
  · exact nodup_groupSuffix_of_single hfields (fun key hkey => (Table.isKey_of_mem_unique hkey).subset)
      (fun key hkey => hsingle key (List.mem_append_left _ hkey)) hunique
  · exact nodup_groupSuffix_of_single hfields (fun key hkey => (Table.isKey_of_mem_resolve hkey).subset)
      (fun key hkey => hsingle key (List.mem_append_right _ hkey)) hindex

/-- A table with keys of one column each. -/
def singleKeys : String := "CREATE TABLE t (id INT PRIMARY KEY, b INT, KEY (b));"

/-- The table with keys of one column each. -/
def singleKeysTable : Table where
  name := "t"
  columns := [{ name := "id", declaredType := "INT", flags := { primary := true } },
    { name := "b", declaredType := "INT" }]
  indexKeys := [⟨[1]⟩]

/-- A table with an index that is declared twice. -/
def repeatedIndex : String := "CREATE TABLE t (a INT, KEY (a), KEY (a));"

/-- The table with an index that is declared twice. -/
def repeatedIndexTable : Table where
  name := "t"
  columns := [{ name := "a", declaredType := "INT" }]
  indexKeys := [⟨[0]⟩, ⟨[0]⟩]

/-- Either text is read as its table, and no warning comes with it. -/
theorem Schema.parse_keyed :
    ((parse singleKeys).tables = [singleKeysTable] ∧ (parse singleKeys).isClean = true)
      ∧ (parse repeatedIndex).tables = [repeatedIndexTable]
      ∧ (parse repeatedIndex).isClean = true := by decide +kernel

theorem nodup_names_singleKeys :
    ((Schema.parse singleKeys).tables = [singleKeysTable]
      ∧ (Schema.parse singleKeys).isClean = true
      ∧ (singleKeysTable.columns.map (·.fieldName)).Nodup)
    ∧ ((functions (Access.file [singleKeysTable] {} "").body).map (·.name)).Nodup := by
  obtain ⟨⟨htables, hclean⟩, -⟩ := Schema.parse_keyed
  have hfields : (singleKeysTable.columns.map (·.fieldName)).Nodup := by decide
  refine ⟨⟨htables, hclean, hfields⟩, ?_⟩
  exact (Schema.nodup_names_iff_of_isClean htables hclean hfields {} "").2.2 (by decide)
    (by decide) (by decide)

/-- There is no warning of an index that is repeated, and the list by it is declared twice. -/
theorem not_nodup_names_repeatedIndex :
    (Schema.parse repeatedIndex).tables = [repeatedIndexTable]
      ∧ (Schema.parse repeatedIndex).isClean = true
      ∧ (repeatedIndexTable.columns.map (·.fieldName)).Nodup
      ∧ ¬((functions (Access.file [repeatedIndexTable] {} "").body).map (·.name)).Nodup := by
  obtain ⟨-, htables, hclean⟩ := Schema.parse_keyed
  refine ⟨htables, hclean, by decide, ?_⟩
  rw [Access.nodup_names_iff]
  exact fun h => absurd h.2 (by decide)

end GoScaffold
