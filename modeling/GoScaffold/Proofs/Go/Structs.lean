import GoScaffold.Proofs.Go.Functions
import GoScaffold.Proofs.Go.Tags

set_option autoImplicit false

/-! # Structs

A struct stands at the outermost depth; the deeper lines after its head are its fields, a name, a type
and a tag each. The tag gives the field its names in JSON texts and in forms. -/

namespace GoScaffold.Go

open Text

/-! ## Values of tags -/

/-- The value that a tag has for a key: that of the first pair with the key, whatever blanks stand
before it. -/
def tagValue? (key cs : List Char) : Option (List UInt8) :=
  match _h : pair? (cs.dropWhile (· == ' ')) with
  | none => none
  | some ((k, value), rest) => if k = key then some value else tagValue? key rest
termination_by cs.length
decreasing_by
  have hshorter := length_of_pair? _h
  have hdropped := (List.dropWhile_sublist (· == ' ') (l := cs)).length_le
  omega

theorem tagValue?_blank (key cs : List Char) : tagValue? key (' ' :: cs) = tagValue? key cs := by
  rw [tagValue?, List.dropWhile_cons_of_pos (by decide), tagValue?]

/-- A pair whose value needs no escapes has the value that is written, for its own key. -/
theorem tagValue?_written {key k body : List Char} (hk : k ≠ [])
    (hchars : ∀ c ∈ k, isKeyChar c = true) (hbody : ∀ c ∈ body, isMarked c = false)
    (rest : List Char) :
    tagValue? key (k ++ ':' :: '"' :: (body ++ '"' :: rest))
      = if k = key then some (utf8 body) else tagValue? key rest := by
  have hpair := pair?_plain hk hchars hbody rest
  have hblank : (k ++ ':' :: '"' :: (body ++ '"' :: rest)).dropWhile (· == ' ')
      = k ++ ':' :: '"' :: (body ++ '"' :: rest) := by
    obtain ⟨c, k, rfl⟩ := List.exists_cons_of_ne_nil hk
    have hc : c ≠ ' ' := by
      rintro rfl
      exact absurd (hchars ' ' List.mem_cons_self) (by decide)
    rw [List.cons_append, List.dropWhile_cons_of_neg (by simp [hc])]
  rw [tagValue?, hblank]
  split
  · next hnone => rw [hpair] at hnone; cases hnone
  · next k' value rest' hsome =>
    rw [hpair] at hsome
    cases hsome
    rfl

/-! ## Fields -/

/-- A field of a struct: its name, and its names in JSON texts and in forms. -/
structure FieldDecl where
  name : String
  json : Option (List UInt8)
  form : Option (List UInt8)
  deriving DecidableEq, Repr

/-- The field that a line declares: a name, a type, and a tag between backticks. -/
def fieldDecl? (cs : List Char) : Option FieldDecl :=
  (splitOnce ' ' cs).bind fun (name, rest) =>
    (splitOnce '`' rest).bind fun (_, rest) =>
      (splitOnce '`' rest).map fun (tag, _) =>
        let value := tag.filter (· != '\r')
        ⟨String.ofList name, tagValue? "json".toList value, tagValue? "form".toList value⟩

/-- A struct: its name and its fields. -/
structure StructDecl where
  name : String
  fields : List FieldDecl
  deriving DecidableEq, Repr

/-- Whether a line begins the declaration of a type. -/
def isType (text : String) : Bool := "type ".toList.isPrefixOf text.toList

/-- The struct that a declaration is, by its head and the lines of its body. -/
def structDecl? (d : String × Code) : Option StructDecl :=
  (dropPrefix? "type ".toList d.1.toList).bind fun rest =>
    (splitOnce ' ' rest).bind fun (name, rest) =>
      if rest = "struct \x7b".toList then
        some ⟨String.ofList name, d.2.filterMap fun l => fieldDecl? l.text.toList⟩
      else none

/-- The structs of code, in order. -/
def structs (c : Code) : List StructDecl := (opened isType c).filterMap structDecl?

/-! ## Structs of parts -/

theorem structs_append {a b : Code} (hb : IsFlush b) : structs (a ++ b) = structs a ++ structs b := by
  rw [structs, opened_append isType hb, List.filterMap_append, structs, structs]

theorem structs_flatMap {α : Type} {f : α → Code} (h : ∀ x, IsFlush (f x)) (xs : List α) :
    structs (xs.flatMap f) = xs.flatMap fun x => structs (f x) := by
  rw [structs, opened_flatMap isType h, List.filterMap_flatMap]
  rfl

theorem isType_eq_false {text : String} (h : text.toList.head? ≠ some 't') : isType text = false := by
  rw [Bool.eq_false_iff]
  intro htype
  obtain ⟨rest, hrest⟩ := List.isPrefixOf_iff_prefix.1 htype
  rw [← hrest] at h
  exact h rfl

theorem structs_line {text : String} (h : text.toList.head? ≠ some 't') : structs (line text) = [] := by
  rw [structs, opened_line (isType_eq_false h), List.filterMap_nil]

theorem structs_heading (title : String) : structs (heading title) = [] := by
  rw [structs, opened_heading (by decide) (fun text => isType_eq_false (by simp)), List.filterMap_nil]

/-- A declaration of something else is no struct. -/
theorem structs_declaration_of_not {head : String} (body : Code)
    (h : (head ++ " \x7b").toList.head? ≠ some 't') : structs (declaration head body) = [] := by
  rw [structs, opened_declaration (by decide) (by decide), isType_eq_false h]
  rfl

/-- The declaration of a struct is one struct. -/
theorem structs_declaration {name : String} (hname : IsName name) (body : Code) :
    structs (declaration ("type " ++ name ++ " struct") body)
      = [⟨name, body.filterMap fun l => fieldDecl? l.text.toList⟩] := by
  have hhead : ("type " ++ name ++ " struct" ++ " \x7b").toList
      = "type ".toList ++ (name.toList ++ ' ' :: "struct \x7b".toList) := by
    simp
  have htype : isType ("type " ++ name ++ " struct" ++ " \x7b") = true := by
    rw [isType, hhead, List.isPrefixOf_iff_prefix]
    exact List.prefix_append _ _
  have hblank : ' ' ∉ name.toList := fun h => absurd (hname ' ' h) (by decide)
  have hstruct : structDecl? ("type " ++ name ++ " struct" ++ " \x7b", indent body)
      = some ⟨name, body.filterMap fun l => fieldDecl? l.text.toList⟩ := by
    rw [structDecl?, dropPrefix?_eq_some.2 hhead, Option.bind_some, splitOnce_append hblank,
      Option.bind_some]
    dsimp only
    rw [if_pos rfl, String.ofList_toList, indent, List.filterMap_map]
    rfl
  rw [structs, opened_declaration (by decide) (by decide), if_pos htype,
    List.filterMap_cons_some hstruct, List.filterMap_nil]

end GoScaffold.Go
