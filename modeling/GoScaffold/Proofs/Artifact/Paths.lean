import GoScaffold.Artifact.Basic
import GoScaffold.Proofs.Text.Paths
import Mathlib.Data.List.Nodup

set_option autoImplicit false

/-! # Where artifacts go

The paths of the artifacts, by the names that they pass. The directories of the router and of the
service are fixed, and that of the records and the data access functions is the package, so the
package can lead into either of them: the paths are pairwise different unless a file of the package
is the router's or the service's (`nodup_paths_iff`). -/

namespace GoScaffold

open GoScaffold.Path

namespace Target

variable (o : Options)

/-- The components of the path of a target. -/
def components (t : Target) : String × List String := Path.components (t.path o)

theorem components_packaged {ending : String} (hslash : '/' ∉ ending.toList)
    (hlong : 2 ≤ ending.toList.length) (hfront : front ending = "") (package : String) :
    Path.components (join package (package ++ ending))
      = if isAbsolute package then
          ("/", namesBefore package ++ [lastPiece package ++ ending])
        else (front package,
          names package ++ (namesBefore package ++ [lastPiece package ++ ending])) := by
  have hrelative : isAbsolute ending = false := by
    rw [Bool.eq_false_iff, Ne, isAbsolute_iff, hfront]
    decide
  have hsame : isAbsolute (package ++ ending) = isAbsolute package := isAbsolute_append hrelative
  have hnames := names_append package hslash hlong
  by_cases habsolute : isAbsolute package = true
  · rw [if_pos habsolute, join_of_isAbsolute _ (hsame.trans habsolute), Path.components, hnames,
      (isAbsolute_iff _).1 (hsame.trans habsolute)]
  · rw [Bool.not_eq_true] at habsolute
    rw [if_neg (by simp [habsolute])]
    by_cases hempty : package = ""
    · rw [hempty, join_empty, Path.components, names_append "" hslash hlong, String.empty_append, hfront]
      rfl
    · rw [components_join hempty (hsame.trans habsolute), hnames]

theorem components_model :
    components o .model
      = if isAbsolute o.package then
          ("/", namesBefore o.package ++ [lastPiece o.package ++ ".go"])
        else (front o.package,
          names o.package ++ (namesBefore o.package ++ [lastPiece o.package ++ ".go"])) :=
  components_packaged (by decide) (by decide) (by decide) o.package

theorem components_crud :
    components o .crud
      = if isAbsolute o.package then
          ("/", namesBefore o.package ++ [lastPiece o.package ++ "_crud.go"])
        else (front o.package,
          names o.package ++ (namesBefore o.package ++ [lastPiece o.package ++ "_crud.go"])) :=
  components_packaged (by decide) (by decide) (by decide) o.package

theorem components_router : components o .router = ("", ["router", "router.go"]) := by
  show Path.components (join "router" "router.go") = _
  decide

theorem components_doc : components o .doc = ("", ["document.md"]) := by
  show Path.components "document.md" = _
  decide

theorem components_service :
    components o .service
      = if isAbsolute o.serviceName then
          ("/", namesBefore o.serviceName ++ [lastPiece o.serviceName ++ ".go"])
        else ("", "service" :: (namesBefore o.serviceName ++ [lastPiece o.serviceName ++ ".go"])) := by
  have hsame : isAbsolute (o.serviceName ++ ".go") = isAbsolute o.serviceName :=
    isAbsolute_append (by decide)
  have hnames : names (o.serviceName ++ ".go")
      = namesBefore o.serviceName ++ [lastPiece o.serviceName ++ ".go"] :=
    names_append o.serviceName (by decide) (by decide)
  show Path.components (join "service" (o.serviceName ++ ".go")) = _
  by_cases habsolute : isAbsolute o.serviceName = true
  · rw [if_pos habsolute, join_of_isAbsolute _ (hsame.trans habsolute), Path.components, hnames,
      (isAbsolute_iff _).1 (hsame.trans habsolute)]
  · have hservice : front "service" = "" ∧ names "service" = ["service"] := by decide
    rw [if_neg habsolute, components_join (by decide) (by rw [hsame]; simpa using habsolute), hnames,
      hservice.1, hservice.2]
    rfl

/-- The last name of the path of a target. -/
def lastName : Target → String
  | .model => lastPiece o.package ++ ".go"
  | .crud => lastPiece o.package ++ "_crud.go"
  | .router => "router.go"
  | .service => lastPiece o.serviceName ++ ".go"
  | .doc => "document.md"

theorem getLast?_components (t : Target) : (components o t).2.getLast? = some (t.lastName o) := by
  cases t with
  | model =>
    rw [components_model]
    split <;> simp [lastName]
  | crud =>
    rw [components_crud]
    split <;> simp [lastName]
  | router =>
    rw [components_router]
    rfl
  | service =>
    rw [components_service]
    split <;> simp [lastName, List.getLast?_cons]
  | doc =>
    rw [components_doc]
    rfl

/-! ## Which paths are the same -/

/-- The name of the service leads from the directory of the service to the file of the package that
has this ending. -/
def ServiceMeets (ending : String) : Prop :=
  lastPiece o.serviceName = lastPiece o.package ++ ending
    ∧ if isAbsolute o.package = true then
        isAbsolute o.serviceName = true ∧ namesBefore o.serviceName = namesBefore o.package
      else
        isAbsolute o.serviceName = false ∧ front o.package = ""
          ∧ "service" :: namesBefore o.serviceName = names o.package ++ namesBefore o.package

/-- Two targets have one path. -/
inductive Clashes : Target → Target → Prop
  | router (h : o.package = "router") : Clashes .model .router
  | model (h : ServiceMeets o "") : Clashes .model .service
  | crud (h : ServiceMeets o "_crud") : Clashes .crud .service

/-- A file of the package is that of the service if the service's name leads to it. -/
theorem packaged_eq_service_iff {ending file : String} (hfile : file = ending ++ ".go") :
    (if isAbsolute o.package then ("/", namesBefore o.package ++ [lastPiece o.package ++ file])
      else (front o.package,
        names o.package ++ (namesBefore o.package ++ [lastPiece o.package ++ file])))
        = components o .service
      ↔ ServiceMeets o ending := by
  have hlast : lastPiece o.package ++ file = lastPiece o.serviceName ++ ".go"
      ↔ lastPiece o.serviceName = lastPiece o.package ++ ending := by
    rw [hfile, ← String.append_assoc, String.append_left_inj, eq_comm]
  have hroot : ("/" : String) ≠ "" := by decide
  rw [components_service, ServiceMeets]
  by_cases hpackage : isAbsolute o.package = true
  · by_cases hservice : isAbsolute o.serviceName = true
    · simp only [hpackage, hservice, if_true, Prod.mk.injEq, true_and, List.append_singleton_inj, hlast]
      rw [and_comm, eq_comm (a := namesBefore o.package)]
    · simp [hpackage, hservice, hroot]
  · have hfront : front o.package ≠ "/" := fun h => hpackage ((isAbsolute_iff _).2 h)
    by_cases hservice : isAbsolute o.serviceName = true
    · simp [hpackage, hservice, hfront]
    · rw [← List.cons_append, ← List.append_assoc]
      simp only [hpackage, hservice, Bool.false_eq_true, if_false, Prod.mk.injEq,
        List.append_singleton_inj, hlast, true_and]
      rw [and_comm, eq_comm (a := names o.package ++ namesBefore o.package)]
      tauto

/-- The file of the records is that of the router in one package only. -/
theorem model_eq_router_iff :
    components o .model = components o .router ↔ o.package = "router" := by
  constructor
  · intro h
    rw [components_model, components_router] at h
    split at h
    · exact absurd (Prod.mk.inj h).1 (by decide)
    · next hrelative =>
      obtain ⟨hfront, hnames⟩ := Prod.mk.inj h
      -- Two names are left for the package twice, so that it has one and stands alone.
      rw [names_eq_append] at hnames
      have hlength := congrArg List.length hnames
      have hone : ([lastPiece o.package].filter (!isVoid ·)).length ≤ 1 :=
        List.length_filter_le _ _
      simp only [List.length_append, List.length_cons, List.length_nil] at hlength
      have hbefore : namesBefore o.package = [] := List.length_eq_zero_iff.1 (by omega)
      rw [hbefore, List.nil_append, List.nil_append] at hnames
      have hparts : [lastPiece o.package].filter (!isVoid ·) ++ [lastPiece o.package ++ ".go"]
          = ["router"] ++ ["router" ++ ".go"] := hnames
      have hlast := (List.append_singleton_inj.1 hparts).2
      rw [eq_lastPiece hfront hbefore, (String.append_left_inj _).1 hlast]
  · intro h
    rw [components_model, components_router, h]
    decide

theorem eq_of_lastName {t t' : Target} (h : components o t = components o t') :
    t.lastName o = t'.lastName o := by
  have hlast := congrArg (fun c => c.2.getLast?) h
  simpa only [getLast?_components, Option.some.injEq] using hlast

theorem components_doc_ne {t : Target} (ht : t ≠ .doc) : components o t ≠ components o .doc := by
  intro h
  have hlast := congrArg (·.toList.getLast?) (eq_of_lastName o h)
  cases t <;> simp [lastName] at hlast ht

theorem components_model_ne_crud : components o .model ≠ components o .crud := by
  intro h
  have hlast := eq_of_lastName o h
  simp only [lastName, String.append_right_inj] at hlast
  exact absurd hlast (by decide)

theorem components_crud_ne_router : components o .crud ≠ components o .router := by
  intro h
  have hsuffix : "_crud.go".toList <:+ "router.go".toList :=
    ⟨(lastPiece o.package).toList, by
      rw [← String.toList_append]
      exact congrArg String.toList (eq_of_lastName o h)⟩
  exact absurd hsuffix (by decide)

theorem components_router_ne_service : components o .router ≠ components o .service := by
  intro h
  rw [components_router, components_service] at h
  split at h
  · exact absurd (Prod.mk.inj h).1 (by decide)
  · exact absurd (List.cons.inj (Prod.mk.inj h).2).1 (by decide)

/-- Two targets that clash are those with one path. -/
theorem components_eq_iff (t t' : Target) :
    components o t = components o t' ↔ t = t' ∨ Clashes o t t' ∨ Clashes o t' t := by
  have hmodel : components o .model = components o .service ↔ ServiceMeets o "" := by
    rw [components_model]
    exact packaged_eq_service_iff o (by decide)
  have hcrud : components o .crud = components o .service ↔ ServiceMeets o "_crud" := by
    rw [components_crud]
    exact packaged_eq_service_iff o (by decide)
  constructor
  · intro h
    cases t <;> cases t'
    case model.crud => exact absurd h (components_model_ne_crud o)
    case crud.model => exact absurd h.symm (components_model_ne_crud o)
    case model.router => exact Or.inr (Or.inl (.router ((model_eq_router_iff o).1 h)))
    case router.model => exact Or.inr (Or.inr (.router ((model_eq_router_iff o).1 h.symm)))
    case model.service => exact Or.inr (Or.inl (.model (hmodel.1 h)))
    case service.model => exact Or.inr (Or.inr (.model (hmodel.1 h.symm)))
    case crud.router => exact absurd h (components_crud_ne_router o)
    case router.crud => exact absurd h.symm (components_crud_ne_router o)
    case crud.service => exact Or.inr (Or.inl (.crud (hcrud.1 h)))
    case service.crud => exact Or.inr (Or.inr (.crud (hcrud.1 h.symm)))
    case router.service => exact absurd h (components_router_ne_service o)
    case service.router => exact absurd h.symm (components_router_ne_service o)
    case model.doc | crud.doc | router.doc | service.doc =>
      exact absurd h (components_doc_ne o (by decide))
    case doc.model | doc.crud | doc.router | doc.service =>
      exact absurd h.symm (components_doc_ne o (by decide))
    all_goals exact Or.inl rfl
  · have hclash {t t' : Target} (h : Clashes o t t') : components o t = components o t' := by
      cases h with
      | router h => exact (model_eq_router_iff o).2 h
      | model h => exact hmodel.2 h
      | crud h => exact hcrud.2 h
    rintro (rfl | h | h)
    · rfl
    · exact hclash h
    · exact (hclash h).symm

/-- A name without slashes leads to a file of the package in the package `service` alone. -/
theorem serviceMeets_iff (hpackage : '/' ∉ o.package.toList) (hname : '/' ∉ o.serviceName.toList)
    (ending : String) :
    ServiceMeets o ending ↔ o.package = "service" ∧ o.serviceName = "service" ++ ending := by
  have hpiece {path : String} (h : '/' ∉ path.toList) :
      lastPiece path = path ∧ namesBefore path = [] ∧ isAbsolute path = false := by
    refine ⟨by rw [lastPiece, pieces_of_notMem h]; rfl, by rw [namesBefore, pieces_of_notMem h]; rfl, ?_⟩
    rw [Bool.eq_false_iff, isAbsolute]
    intro habsolute
    exact h (List.mem_of_mem_head? (by simpa using habsolute))
  obtain ⟨hlast, hbefore, hrelative⟩ := hpiece hpackage
  obtain ⟨hlast', hbefore', hrelative'⟩ := hpiece hname
  rw [ServiceMeets, if_neg (by simp [hrelative]), hlast, hbefore, hlast', hbefore', names_eq_append,
    hbefore, hlast, hrelative']
  constructor
  · rintro ⟨hservice, -, -, hnames⟩
    have hsingle : [o.package].filter (!isVoid ·) = ["service"] := by simpa using hnames.symm
    have hmem : "service" ∈ [o.package].filter (!isVoid ·) := by simp [hsingle]
    have hpackage : o.package = "service" := (by simpa using List.mem_of_mem_filter hmem : _ = _).symm
    exact ⟨hpackage, by rw [hservice, hpackage]⟩
  · rintro ⟨hservice, hending⟩
    rw [hservice]
    exact ⟨hending, rfl, by decide, by decide⟩

end Target

open Target

/-- The paths of the artifacts are pairwise different if and only if no two of the targets clash. -/
theorem nodup_paths_iff (tables : List Table) (o : Options) (today : String) :
    ((generate tables o today).map fun a => Path.components a.path).Nodup
      ↔ ∀ t ∈ enabled o.targets, ∀ t' ∈ enabled o.targets, ¬Clashes o t t' := by
  have hnodup : (enabled o.targets).Nodup := List.Nodup.filter _ (by decide)
  have hmap : (generate tables o today).map (fun a => Path.components a.path)
      = (enabled o.targets).map (Target.components o) := by
    rw [generate, List.map_map]
    rfl
  rw [hmap, List.nodup_map_iff_inj_on hnodup]
  constructor
  · intro h t ht t' ht' hclash
    obtain rfl := h t ht t' ht' ((components_eq_iff o t t').2 (Or.inr (Or.inl hclash)))
    cases hclash
  · intro h t ht t' ht' hsame
    rcases (components_eq_iff o t t').1 hsame with rfl | hclash | hclash
    · rfl
    · exact absurd hclash (h t ht t' ht')
    · exact absurd hclash (h t' ht' t ht)

/-- In the package `service`, the records and the service go to one path. -/
theorem not_nodup_paths_servicePackage :
    ¬((generate [] { package := "service", targets := ⟨true, false, false, true, false⟩ } "").map
      fun a => Path.components a.path).Nodup := by
  decide +kernel

end GoScaffold
