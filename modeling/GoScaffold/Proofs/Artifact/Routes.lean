import GoScaffold.Proofs.Artifact.Endpoints
import GoScaffold.Proofs.Artifact.Redeclared
import GoScaffold.Proofs.Text.Forms

set_option autoImplicit false

/-! # Routes told apart

The keys of the map of handlers are a method and a route, and the name of a table stands in a route
between two slashes or at its end. So a key tells the operation and the name of the route, and for
tables with ASCII names the map has no key twice if and only if no two tables have one model
(`nodup_routeKeys_iff`). -/

namespace GoScaffold

open Text Naming

/-! ## Routes of operations -/

namespace Operation

/-- What follows the name of the table in the route. -/
def ending : Operation → String
  | .list => "/many"
  | .get => "/one"
  | .create | .update | .delete => ""

theorem route_eq (op : Operation) (t : Table) : op.route t = "/api/" ++ (t.routeName ++ op.ending) := by
  cases op <;> simp [route, ending, String.append_assoc]

/-- An operation is told by its method and the end of its route. -/
theorem eq_of_method_of_ending {op other : Operation} (hmethod : op.method = other.method)
    (hending : op.ending = other.ending) : op = other := by
  cases op <;> cases other <;> revert hmethod hending <;> decide

/-- The end of a route begins with the first slash behind the name. -/
theorem takeWhile_append_ending {name : List Char} (h : '/' ∉ name) (op : Operation) :
    (name ++ op.ending.toList).takeWhile (· != '/') = name := by
  have hnone : op.ending.toList.takeWhile (· != '/') = [] := by
    cases op <;> rfl
  have hkept : ∀ c ∈ name, (c != '/') = true := by
    intro c hc
    rw [bne_iff_ne]
    rintro rfl
    exact h hc
  rw [List.takeWhile_append_of_pos hkept, hnone, List.append_nil]

theorem slash_notMem_routeName (t : Table) : '/' ∉ t.routeName.toList := by
  intro h
  rcases mem_kebab h with h | h
  · exact absurd h (by decide)
  · exact absurd h (by decide)

/-- A route tells the name and the end. -/
theorem route_inj {op other : Operation} {t s : Table} :
    op.route t = other.route s ↔ t.routeName = s.routeName ∧ op.ending = other.ending := by
  rw [route_eq, route_eq, String.append_right_inj]
  constructor
  · intro h
    have hchars := congrArg String.toList h
    rw [String.toList_append, String.toList_append] at hchars
    have hname := congrArg (List.takeWhile (· != '/')) hchars
    rw [takeWhile_append_ending (slash_notMem_routeName t),
      takeWhile_append_ending (slash_notMem_routeName s), String.toList_inj] at hname
    rw [hname, String.append_right_inj] at h
    exact ⟨hname, h⟩
  · rintro ⟨hname, hending⟩
    rw [hname, hending]

end Operation

/-- A key tells the operation and the name of the route. -/
theorem Router.routeKey_inj {op other : Operation} {t s : Table} :
    routeKey t op = routeKey s other ↔ op = other ∧ t.routeName = s.routeName := by
  constructor
  · intro h
    have hsplit (op : Operation) (t : Table) :
        splitOnce ' ' (routeKey t op).toList = some (op.method.toList, (op.route t).toList) := by
      have hmethod : ' ' ∉ op.method.toList := by
        cases op <;> decide
      have hkey : (routeKey t op).toList = op.method.toList ++ ' ' :: (op.route t).toList := by
        simp [routeKey]
      rw [hkey, splitOnce_append hmethod]
    have hparts := hsplit op t
    rw [h, hsplit other s, Option.some.injEq, Prod.mk.injEq, String.toList_inj, String.toList_inj] at hparts
    obtain ⟨hname, hending⟩ := Operation.route_inj.1 hparts.2
    exact ⟨Operation.eq_of_method_of_ending hparts.1.symm hending.symm, hname.symm⟩
  · rintro ⟨rfl, hname⟩
    rw [routeKey, routeKey, Operation.route_inj.2 ⟨hname, rfl⟩]

/-! ## Routes of tables -/

theorem Operation.nodup_ofTable (t : Table) : (ofTable t).Nodup := by
  unfold ofTable
  split <;> decide

theorem Operation.create_mem_ofTable (t : Table) : create ∈ ofTable t := by
  unfold ofTable
  split <;> exact List.mem_cons_self

/-- The names of the routes of tables with ASCII names tell the models. -/
theorem nodup_routeNames_iff {tables : List Table}
    (h : ∀ t ∈ tables, ∀ c ∈ t.name.toList, c.toNat < 0x80) :
    (tables.map Table.routeName).Nodup ↔ (tables.map Table.modelName).Nodup := by
  have hroutes : tables.map Table.routeName
      = (tables.map Table.modelName).map (onChars (separate '-')) := by
    rw [List.map_map]
    refine List.map_congr_left fun t _ => String.toList_inj.1 ?_
    simp [Table.routeName, Table.modelName, kebab, upperCamel]
  have hmodels : tables.map Table.modelName = (tables.map Table.routeName).map upperCamel := by
    rw [List.map_map]
    exact List.map_congr_left fun t ht => (upperCamel_kebab (h t ht)).symm
  constructor
  · intro hnodup
    rw [hroutes] at hnodup
    exact hnodup.of_map
  · intro hnodup
    rw [hmodels] at hnodup
    exact hnodup.of_map

/-- The key of an entry of the map. -/
def Route.key (r : Route) : String := r.method ++ " " ++ r.path

/-- The keys of the map are told apart by the operation and the name of the route. -/
theorem nodup_keys_iff_routeNames (tables : List Table) (o : Options) (today : String) :
    ((routes (Router.file tables o today).body).map Route.key).Nodup
      ↔ (tables.map Table.routeName).Nodup := by
  have hkeys : (routes (Router.file tables o today).body).map Route.key
      = (tables.flatMap fun t => (Operation.ofTable t).map (·, t)).map
        fun p => Router.routeKey p.2 p.1 := by
    rw [routes_file, List.map_flatMap, List.map_flatMap]
    simp only [List.map_map]
    rfl
  have hlabels : (tables.flatMap fun t => (Operation.ofTable t).map (·, t)).map
        (fun p => (p.1, p.2.routeName))
      = tables.flatMap fun t => (Operation.ofTable t).map (·, t.routeName) := by
    rw [List.map_flatMap]
    simp only [List.map_map]
    rfl
  rw [hkeys, nodup_map_congr (g := fun p => (p.1, p.2.routeName)), hlabels,
    nodup_flatMap_labels Operation.nodup_ofTable Operation.create_mem_ofTable]
  rintro ⟨op, t⟩ ⟨other, s⟩
  rw [Router.routeKey_inj, Prod.mk.injEq]

/-- Tables with ASCII names have pairwise different keys in the map of handlers if and only if their
models are pairwise different, as ASCII names have one kebab form just if they have one upper camel
form. -/
theorem nodup_routeKeys_iff {tables : List Table}
    (h : ∀ t ∈ tables, ∀ c ∈ t.name.toList, c.toNat < 0x80) (o : Options) (today : String) :
    (((routes (Router.file tables o today).body).map Route.key).Nodup
        ↔ (tables.map Table.modelName).Nodup)
      ∧ ∀ a b : String, (∀ c ∈ a.toList, c.toNat < 0x80) → (∀ c ∈ b.toList, c.toNat < 0x80) →
        (kebab a = kebab b ↔ upperCamel a = upperCamel b) := by
  rw [nodup_keys_iff_routeNames, nodup_routeNames_iff h]
  exact ⟨Iff.rfl, fun a b ha hb => kebab_inj ha hb⟩

/-- A table with a primary key. -/
def keyedTable (name : String) : Table :=
  { name, columns := [⟨"id", "INT", {}, none, none⟩], primaryKeys := [⟨[0]⟩] }

/-- Three tables with their own models, and two with one model. -/
theorem nodup_routeKeys_keyedTables :
    (∀ t ∈ [keyedTable "tb_dept", keyedTable "Order2Item", ⟨"_user", [], [], [], [], none⟩],
        ∀ c ∈ t.name.toList, c.toNat < 0x80)
      ∧ ((routes (Router.file [keyedTable "tb_dept", keyedTable "Order2Item",
        ⟨"_user", [], [], [], [], none⟩] {} "").body).map Route.key).Nodup
      ∧ (∀ t ∈ [keyedTable "tb_dept", keyedTable "TbDept"], ∀ c ∈ t.name.toList, c.toNat < 0x80)
      ∧ ¬((routes (Router.file [keyedTable "tb_dept", keyedTable "TbDept"] {} "").body).map
        Route.key).Nodup := by
  have hapart : ∀ t ∈ [keyedTable "tb_dept", keyedTable "Order2Item", ⟨"_user", [], [], [], [], none⟩],
      ∀ c ∈ t.name.toList, c.toNat < 0x80 := by decide
  have hone : ∀ t ∈ [keyedTable "tb_dept", keyedTable "TbDept"], ∀ c ∈ t.name.toList, c.toNat < 0x80 := by
    decide
  refine ⟨hapart, (nodup_routeKeys_iff hapart {} "").1.2 (by decide), hone, ?_⟩
  rw [(nodup_routeKeys_iff hone {} "").1]
  decide

end GoScaffold
