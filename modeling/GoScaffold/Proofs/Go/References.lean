import GoScaffold.Proofs.Go.Functions
import GoScaffold.Proofs.Go.Interpreted

set_option autoImplicit false

/-! # References to packages

Go code refers to a package by a word with a dot behind it, where nothing is selected from something
else, and neither in a comment nor in a literal. What a text refers to so hangs on the place it is read
from. A text that is put together from parts is followed place by place (`Runs`): fixed parts are read
out, names and quoted texts refer to nothing whatever they are, and code whose lines end where lines may
end refers to what its lines refer to (`references_render`). -/

namespace GoScaffold.Go

open Text

/-! ## Reading references -/

/-- The characters of words. -/
def isWordPart (c : Char) : Bool := isNameChar c || c == '_'

/-- Where in code a reader stands. -/
inductive Place
  /-- Behind a word that nothing selects; the word is empty between words. -/
  | word (w : List Char)
  /-- Behind a dot and perhaps more words and dots. -/
  | selected
  /-- Behind a slash that may begin a comment. -/
  | slash
  | lineComment
  /-- In a block comment, right behind a star or not. -/
  | blockComment (star : Bool)
  /-- In a literal with escapes between these quotes, right behind a backslash or not. -/
  | literal (quote : Char) (escaped : Bool)
  /-- In a raw string. -/
  | raw
  deriving DecidableEq, Repr

namespace Place

/-- The place behind a character that goes on with nothing. -/
def enter (c : Char) : Place :=
  if isWordPart c then .word [c]
  else if c = '.' then .selected
  else if c = '/' then .slash
  else if c = '"' ∨ c = '\'' then .literal c false
  else if c = '`' then .raw
  else .word []

/-- The place behind one more character. -/
def next (p : Place) (c : Char) : Place :=
  match p with
  | .word w => if isWordPart c then .word (w ++ [c]) else enter c
  | .selected => if isWordPart c || c == '.' then .selected else enter c
  | .slash => if c = '/' then .lineComment else if c = '*' then .blockComment false else enter c
  | .lineComment => if c = '\n' then .word [] else .lineComment
  | .blockComment star => if star ∧ c = '/' then .word [] else .blockComment (c == '*')
  | .literal quote escaped =>
    if escaped then .literal quote false
    else if c = '\\' then .literal quote true
    else if c = quote then .word []
    else .literal quote false
  | .raw => if c = '`' then .word [] else .raw

/-- What a character refers to behind a place. -/
def referred (p : Place) (c : Char) : List String :=
  match p with
  | .word w => if c = '.' then [String.ofList w] else []
  | _ => []

/-- The place behind a text. -/
def after (p : Place) (cs : List Char) : Place := cs.foldl next p

theorem after_append (p : Place) (as bs : List Char) : p.after (as ++ bs) = (p.after as).after bs :=
  List.foldl_append

end Place

/-- What a text refers to, read from a place. -/
def references : Place → List Char → List String
  | _, [] => []
  | p, c :: cs => p.referred c ++ references (p.next c) cs

/-- What Go code refers to. -/
def referencesOf (s : String) : List String := references (.word []) s.toList

theorem references_append (p : Place) (as bs : List Char) :
    references p (as ++ bs) = references p as ++ references (p.after as) bs := by
  induction as generalizing p with
  | nil => rfl
  | cons c as ih => rw [List.cons_append, references, references, ih, List.append_assoc]; rfl

/-- The word behind one more character still ends what was read. -/
theorem Place.suffix_of_next {p : Place} {seen : List Char} (h : ∀ w, p = .word w → w <:+ seen)
    (c : Char) : ∀ w, p.next c = .word w → w <:+ seen ++ [c] := by
  have henter : ∀ w, enter c = .word w → w <:+ seen ++ [c] := by
    intro w hw
    unfold enter at hw
    split_ifs at hw
    · cases hw; exact List.suffix_append seen [c]
    · cases hw; exact List.nil_suffix
  intro w hw
  cases p with
  | word u =>
    rw [next] at hw
    split at hw
    · cases hw
      obtain ⟨before, rfl⟩ := h u rfl
      exact ⟨before, by simp⟩
    · exact henter w hw
  | selected =>
    rw [next] at hw
    split at hw
    · cases hw
    · exact henter w hw
  | slash =>
    rw [next] at hw
    split_ifs at hw
    exact henter w hw
  | lineComment | raw | blockComment star =>
    rw [next] at hw
    split at hw
    · cases hw; exact List.nil_suffix
    · cases hw
  | literal quote escaped =>
    rw [next] at hw
    split_ifs at hw
    cases hw
    exact List.nil_suffix

/-- What a text refers to stands in it with a dot behind it. -/
theorem infix_of_mem_references {p : Place} (seen : List Char) {cs : List Char} {s : String}
    (hp : ∀ w, p = .word w → w <:+ seen) (h : s ∈ references p cs) :
    s.toList ++ ['.'] <:+: seen ++ cs := by
  induction cs generalizing p seen with
  | nil => cases h
  | cons c cs ih =>
    rw [references, List.mem_append] at h
    rcases h with h | h
    · cases p with
      | word w =>
        by_cases hdot : c = '.'
        · rw [Place.referred, if_pos hdot, List.mem_singleton] at h
          obtain ⟨before, rfl⟩ := hp w rfl
          exact ⟨before, cs, by simp [h, hdot]⟩
        · rw [Place.referred, if_neg hdot] at h
          cases h
      | _ => cases h
    · have hmore := ih (seen ++ [c]) (Place.suffix_of_next hp c) h
      simpa using hmore

theorem infix_of_mem_referencesOf {s text : String} (h : s ∈ referencesOf text) :
    s.toList ++ ['.'] <:+: text.toList :=
  infix_of_mem_references [] (fun w hw => by cases hw; exact List.suffix_refl []) h

/-- Selections, strings and comments refer to nothing. -/
example : referencesOf "x := fmt.Sprint(p.Name.Len(), \"a.b\") // c.d" = ["fmt", "p"] := by decide

/-! ## Following texts -/

/-- The packages of the libraries that artifacts are written with. -/
def packages : List String := ["fmt", "time", "errors", "strings", "log", "http", "sql", "gorm", "gin"]

/-- The kinds of places between the parts of a text. -/
inductive Spot
  /-- Between words. -/
  | between
  /-- Behind a word or a selection, or between words. -/
  | inside
  /-- Behind a dot and perhaps more words and dots. -/
  | selected
  /-- In a string. -/
  | string
  /-- In a raw string. -/
  | raw
  /-- In a line comment. -/
  | comment
  deriving DecidableEq, Repr

namespace Spot

/-- Whether a place is of this kind. -/
def has : Spot → Place → Bool
  | .between, .word w => w.isEmpty
  | .inside, .word _ => true
  | .inside, .selected => true
  | .selected, .selected => true
  | .string, .literal quote escaped => quote == '"' && !escaped
  | .raw, .raw => true
  | .comment, .lineComment => true
  | _, _ => false

/-- A place of this kind. -/
def place : Spot → Place
  | .between | .inside => .word []
  | .selected => .selected
  | .string => .literal '"' false
  | .raw => .raw
  | .comment => .lineComment

/-- The characters that leave every place of this kind in the kind. -/
def keeps : Spot → Char → Bool
  | .between, _ => false
  | .inside, c => isWordPart c
  | .selected, c => isWordPart c || c == '.'
  | .string, c => c != '"' && c != '\\'
  | .raw, c => c != '`'
  | .comment, c => c != '\n'

/-- Whether a text begins with a character that ends words. -/
def breaks : List Char → Bool
  | [] => false
  | c :: _ => !isWordPart c && c != '.'

theorem has_inside_of_between {p : Place} (h : Spot.between.has p = true) :
    Spot.inside.has p = true := by
  cases p <;> first | rfl | cases h

theorem eq_place {a : Spot} (ha : a ≠ .inside) {p : Place} (h : a.has p = true) : p = a.place := by
  cases a with
  | inside => exact absurd rfl ha
  | between =>
    cases p with
    | word w => exact congrArg Place.word (List.isEmpty_iff.1 h)
    | _ => cases h
  | string =>
    cases p with
    | literal quote escaped =>
      have hstring : (quote == '"' && !escaped) = true := h
      rw [Bool.and_eq_true, beq_iff_eq, Bool.not_eq_true'] at hstring
      rw [hstring.1, hstring.2]
      rfl
    | _ => cases h
  | selected | raw | comment => cases p <;> first | rfl | cases h

/-- A character that ends words is read behind a word as it is read between words. -/
theorem next_of_has_inside {p : Place} (hp : Spot.inside.has p = true) {c : Char}
    (hword : isWordPart c = false) (hdot : c ≠ '.') : p.next c = .enter c ∧ p.referred c = [] := by
  cases p with
  | word w =>
    rw [Place.next, Place.referred, hword, if_neg Bool.false_ne_true, if_neg hdot]
    exact ⟨rfl, rfl⟩
  | selected =>
    rw [Place.next, hword, Bool.false_or, beq_false_of_ne hdot, if_neg Bool.false_ne_true]
    exact ⟨rfl, rfl⟩
  | _ => cases hp

end Spot

/-- A text leads from places of one kind to places of another, and of the packages it refers to none
but the allowed ones. -/
def Runs (allowed : List String) (a : Spot) (s : String) (b : Spot) : Prop :=
  ∀ p, a.has p = true →
    (∀ w ∈ references p s.toList, w ∈ packages → w ∈ allowed) ∧ b.has (p.after s.toList) = true

/-- Whether a fixed text leads from places of one kind to places of another and refers to no package
that is not allowed. -/
def fits (allowed : List String) (a : Spot) (cs : List Char) (b : Spot) : Bool :=
  (a != .inside || Spot.breaks cs)
    && (references a.place cs).all (fun w => !packages.contains w || allowed.contains w)
    && b.has (a.place.after cs)

/-- A text that ends words is read behind a word as it is read between words. -/
theorem references_of_breaks {cs : List Char} (h : Spot.breaks cs = true) {p : Place}
    (hp : Spot.inside.has p = true) :
    references p cs = references (.word []) cs ∧ p.after cs = Place.after (.word []) cs := by
  cases cs with
  | nil => cases h
  | cons c cs =>
    simp only [Spot.breaks, Bool.and_eq_true, Bool.not_eq_true', bne_iff_ne] at h
    have hstep := Spot.next_of_has_inside hp h.1 h.2
    have hempty := Spot.next_of_has_inside (p := .word []) rfl h.1 h.2
    rw [references, references, Place.after, Place.after, List.foldl_cons, List.foldl_cons, hstep.1,
      hstep.2, hempty.1, hempty.2]
    exact ⟨rfl, rfl⟩

/-- A word with a dot behind it is what is referred to. -/
theorem references_qualifier {cs : List Char} (w : List Char) (h : ∀ c ∈ cs, isWordPart c = true) :
    references (.word w) (cs ++ ['.']) = [String.ofList (w ++ cs)]
      ∧ Place.after (.word w) (cs ++ ['.']) = .selected := by
  induction cs generalizing w with
  | nil =>
    rw [List.append_nil]
    exact ⟨rfl, rfl⟩
  | cons c cs ih =>
    have hc := h c List.mem_cons_self
    have hdot : c ≠ '.' := by
      rintro rfl
      exact absurd hc (by decide)
    obtain ⟨hreferences, hafter⟩ := ih (w ++ [c]) fun d hd => h d (List.mem_cons_of_mem _ hd)
    rw [List.append_assoc, List.singleton_append] at hreferences
    constructor
    · rw [List.cons_append, references, Place.referred, if_neg hdot, Place.next, if_pos hc]
      exact hreferences
    · rw [List.cons_append, Place.after, List.foldl_cons, Place.next, if_pos hc]
      exact hafter

namespace Runs

variable {allowed more : List String} {a b c : Spot} {s t : String}

theorem append (hs : Runs allowed a s b) (ht : Runs allowed b t c) : Runs allowed a (s ++ t) c := by
  intro p hp
  obtain ⟨hreferences, hmid⟩ := hs p hp
  obtain ⟨hreferences', hend⟩ := ht _ hmid
  rw [String.toList_append, references_append, Place.after_append]
  refine ⟨fun w hw => ?_, hend⟩
  rcases List.mem_append.1 hw with hw | hw
  · exact hreferences w hw
  · exact hreferences' w hw

theorem mono (h : Runs allowed a s b) (hmore : ∀ w ∈ allowed, w ∈ more) : Runs more a s b :=
  fun p hp => ⟨fun w hw hpackage => hmore w ((h p hp).1 w hw hpackage), (h p hp).2⟩

/-- A fixed text, as it is read out. -/
theorem naming (named : List String) {cs : List Char} (h : fits named a cs b = true)
    (hnamed : ∀ w ∈ named, w ∈ allowed) : Runs allowed a (String.ofList cs) b := by
  simp only [fits, Bool.and_eq_true, Bool.or_eq_true, List.all_eq_true] at h
  obtain ⟨⟨hstart, hreferences⟩, hend⟩ := h
  intro p hp
  have hsame : references p cs = references a.place cs ∧ p.after cs = a.place.after cs := by
    by_cases ha : a = .inside
    · subst ha
      exact references_of_breaks (hstart.resolve_left (by decide)) hp
    · rw [Spot.eq_place ha hp]
      exact ⟨rfl, rfl⟩
  rw [String.toList_ofList, hsame.1, hsame.2]
  refine ⟨fun w hw hpackage => hnamed w ?_, hend⟩
  have := hreferences w hw
  simpa [hpackage] using this

theorem fixed {cs : List Char} (h : fits [] a cs b = true) : Runs allowed a (String.ofList cs) b :=
  naming [] h fun _ hw => absurd hw List.not_mem_nil

/-- A text that is put together from fixed parts alone. -/
theorem computed (h : fits [] a s.toList b = true) : Runs allowed a s b := by
  have hfixed : Runs allowed a (String.ofList s.toList) b := fixed h
  rwa [String.ofList_toList] at hfixed

theorem of_nil (h : Runs [] a s b) : Runs allowed a s b := h.mono fun _ hw => absurd hw List.not_mem_nil

theorem empty : Runs allowed a "" a := fun _ hp => ⟨fun _ hw => absurd hw List.not_mem_nil, hp⟩

/-- A text of characters that change nothing. -/
theorem kept (h : ∀ c ∈ s.toList, a.keeps c = true) : Runs allowed a s a := by
  have hstep {c : Char} (hc : a.keeps c = true) {p : Place} (hp : a.has p = true) :
      a.has (p.next c) = true ∧ p.referred c = [] := by
    cases a with
    | between => cases hc
    | inside =>
      have hdot : c ≠ '.' := by
        rintro rfl
        exact absurd hc (by decide)
      rw [Spot.keeps] at hc
      cases p with
      | word w =>
        rw [Place.next, if_pos hc, Place.referred, if_neg hdot]
        exact ⟨rfl, rfl⟩
      | selected =>
        rw [Place.next, hc, Bool.true_or, if_pos rfl]
        exact ⟨rfl, rfl⟩
      | _ => cases hp
    | selected =>
      rw [Spot.keeps] at hc
      rw [Spot.eq_place (by decide) hp, Spot.place, Place.next, if_pos hc]
      exact ⟨rfl, rfl⟩
    | string =>
      rw [Spot.keeps, Bool.and_eq_true, bne_iff_ne, bne_iff_ne] at hc
      rw [Spot.eq_place (by decide) hp, Spot.place, Place.next, if_neg Bool.false_ne_true, if_neg hc.2,
        if_neg hc.1]
      exact ⟨rfl, rfl⟩
    | raw | comment =>
      rw [Spot.keeps, bne_iff_ne] at hc
      rw [Spot.eq_place (by decide) hp, Spot.place, Place.next, if_neg hc]
      exact ⟨rfl, rfl⟩
  intro p hp
  generalize s.toList = cs at h
  induction cs generalizing p with
  | nil => exact ⟨fun _ hw => absurd hw List.not_mem_nil, hp⟩
  | cons c cs ih =>
    obtain ⟨hnext, hreferred⟩ := hstep (h c List.mem_cons_self) hp
    rw [references, hreferred, List.nil_append]
    exact ih _ hnext fun d hd => h d (List.mem_cons_of_mem _ hd)

theorem loosen (h : Runs allowed a s .between) : Runs allowed a s .inside :=
  fun p hp => ⟨(h p hp).1, Spot.has_inside_of_between (h p hp).2⟩

theorem unselect (h : Runs allowed a s .selected) : Runs allowed a s .inside := by
  intro p hp
  obtain ⟨hreferences, hend⟩ := h p hp
  rw [Spot.eq_place (by decide) hend]
  exact ⟨hreferences, rfl⟩

theorem of_inside (h : Runs allowed .inside s b) : Runs allowed .between s b :=
  fun p hp => h p (Spot.has_inside_of_between hp)

/-! ### Parts of texts -/

theorem keeps_of_isNameChar (ha : a ≠ .between) {c : Char} (hc : isNameChar c = true) :
    a.keeps c = true := by
  have hmark {d : Char} (hd : isNameChar d = false) : c ≠ d := by
    rintro rfl
    rw [hd] at hc
    cases hc
  cases a with
  | between => exact absurd rfl ha
  | inside => simp [Spot.keeps, isWordPart, hc]
  | selected => simp [Spot.keeps, isWordPart, hc]
  | string => simp [Spot.keeps, hmark (show isNameChar '"' = false by decide),
      hmark (show isNameChar '\\' = false by decide)]
  | raw => simp [Spot.keeps, hmark (show isNameChar '`' = false by decide)]
  | comment => simp [Spot.keeps, hmark (show isNameChar '\n' = false by decide)]

/-- A name refers to nothing where it stands. -/
theorem name (ha : a ≠ .between) (h : IsName s) : Runs allowed a s a :=
  kept fun c hc => keeps_of_isNameChar ha (h c hc)

theorem join {sep : String} {texts : List String} (hempty : Runs allowed a "" b)
    (htexts : ∀ s ∈ texts, Runs allowed a s b) (hsep : Runs allowed b sep a) :
    Runs allowed a (Text.join sep texts) b := by
  induction texts with
  | nil => exact hempty
  | cons s texts ih =>
    have hs := htexts s List.mem_cons_self
    cases texts with
    | nil => exact hs
    | cons t texts =>
      exact (hs.append hsep).append (ih fun u hu => htexts u (List.mem_cons_of_mem _ hu))

/-- Expressions with commas between each two. -/
theorem list {texts : List String} (h : ∀ s ∈ texts, Runs allowed .between s .inside) :
    Runs allowed .between (Text.join ", " texts) .inside :=
  join (.loosen .empty) h (fixed (by decide))

theorem concat {texts : List String} (h : ∀ s ∈ texts, Runs allowed a s a) :
    Runs allowed a (Text.concat texts) a := by
  induction texts with
  | nil => exact empty
  | cons s texts ih =>
    exact (h s List.mem_cons_self).append (ih fun t ht => h t (List.mem_cons_of_mem _ ht))

/-- A package with a dot behind it. -/
theorem qualifier {package : String} (hword : ∀ c ∈ package.toList, isWordPart c = true)
    (hpackage : package ∈ allowed) : Runs allowed .between (package ++ ".") .selected := by
  have hdot : ".".toList = ['.'] := by decide
  obtain ⟨hreferences, hafter⟩ := references_qualifier [] hword
  intro p hp
  rw [Spot.eq_place (by decide) hp, String.toList_append, hdot, Spot.place, hreferences, hafter,
    List.nil_append, String.ofList_toList]
  refine ⟨fun w hw _ => ?_, rfl⟩
  rw [List.mem_singleton.1 hw]
  exact hpackage

end Runs

/-! ### Quoted texts -/

/-- A text that is passed over in a string. -/
def Passes (cs : List Char) : Prop :=
  references (.literal '"' false) cs = []
    ∧ Place.after (.literal '"' false) cs = .literal '"' false

theorem Passes.append {as bs : List Char} (ha : Passes as) (hb : Passes bs) : Passes (as ++ bs) := by
  constructor
  · rw [references_append, ha.1, ha.2, hb.1, List.append_nil]
  · rw [Place.after_append, ha.2, hb.2]

theorem passes_of_keeps {cs : List Char} (h : ∀ c ∈ cs, Spot.string.keeps c = true) : Passes cs := by
  induction cs with
  | nil => exact ⟨rfl, rfl⟩
  | cons c cs ih =>
    have hc := h c List.mem_cons_self
    simp only [Spot.keeps, Bool.and_eq_true, bne_iff_ne] at hc
    have hone : Passes [c] := by simp [Passes, references, Place.after, Place.next, Place.referred, hc]
    exact hone.append (ih fun d hd => h d (List.mem_cons_of_mem _ hd))

theorem passes_escaped (c : Char) {cs : List Char} (h : ∀ c ∈ cs, Spot.string.keeps c = true) :
    Passes ('\\' :: c :: cs) := by
  have hpair : Passes ['\\', c] := by
    simp [Passes, references, Place.after, Place.next, Place.referred]
  exact hpair.append (passes_of_keeps h)

theorem keeps_hex (places n : Nat) : ∀ c ∈ hex places n, Spot.string.keeps c = true := by
  have hdigit : ∀ n < 16, Spot.string.keeps (hexDigit n) = true := by decide
  induction places generalizing n with
  | zero => exact fun c hc => absurd hc List.not_mem_nil
  | succ places ih =>
    intro c hc
    rw [hex, List.mem_append, List.mem_singleton] at hc
    rcases hc with hc | rfl
    · exact ih _ c hc
    · exact hdigit _ (Nat.mod_lt n (by decide))

theorem passes_escape (c : Char) : Passes (escape c) := by
  unfold escape
  have hnone : ∀ d ∈ ([] : List Char), Spot.string.keeps d = true := by simp
  split
  · exact passes_escaped _ hnone
  split
  · exact passes_escaped _ hnone
  split
  · exact passes_escaped _ hnone
  split
  · exact passes_escaped _ hnone
  split
  · exact passes_escaped _ hnone
  split
  · exact passes_escaped _ (keeps_hex _ _)
  split
  · exact passes_escaped _ (keeps_hex _ _)
  · next hquote hback _ _ _ _ _ =>
    exact passes_of_keeps (by simp [Spot.keeps, hquote, hback])

theorem passes_flatMap_escape (cs : List Char) : Passes (cs.flatMap escape) := by
  induction cs with
  | nil => exact ⟨rfl, rfl⟩
  | cons c cs ih => exact (passes_escape c).append ih

/-- A quoted text refers to nothing. -/
theorem Runs.quoted (allowed : List String) (cs : List Char) :
    Runs allowed .inside (String.ofList (quoteChars cs)) .between := by
  intro p hp
  have hopen : p.next '"' = .literal '"' false ∧ p.referred '"' = [] :=
    Spot.next_of_has_inside hp (by decide) (by decide)
  obtain ⟨hreferences, hafter⟩ := passes_flatMap_escape cs
  rw [String.toList_ofList, quoteChars, references, Place.after, List.foldl_cons, hopen.1, hopen.2,
    references_append, hreferences, hafter]
  refine ⟨fun w hw => absurd hw List.not_mem_nil, ?_⟩
  have hend := Place.after_append (.literal '"' false) (cs.flatMap escape) ['"']
  rw [hafter] at hend
  rw [← Place.after, hend]
  rfl

theorem Runs.quote (allowed : List String) (s : String) :
    Runs allowed .inside (Go.quote s) .between := quoted allowed s.toList

/-! ## Code -/

/-- Each line of code is read between words, ends where a line may end, and of the packages refers to
none but the allowed ones. -/
def CodeRuns (allowed : List String) (c : Code) : Prop :=
  ∀ l ∈ c, Runs allowed .between (l.text ++ "\n") .between

/-- Whether fixed code does so. -/
def codeFits (allowed : List String) (c : Code) : Bool :=
  c.all fun l => fits allowed .between (l.text ++ "\n").toList .between

namespace CodeRuns

variable {allowed : List String} {a b : Code}

theorem nil : CodeRuns allowed [] := fun _ hl => absurd hl List.not_mem_nil

theorem append (ha : CodeRuns allowed a) (hb : CodeRuns allowed b) : CodeRuns allowed (a ++ b) :=
  List.forall_mem_append.2 ⟨ha, hb⟩

theorem naming (named : List String) (h : codeFits named a = true) (hnamed : ∀ w ∈ named, w ∈ allowed) :
    CodeRuns allowed a := by
  intro l hl
  have hline := Runs.naming named (List.all_eq_true.1 h l hl) hnamed
  rwa [String.ofList_toList] at hline

theorem fixed (h : codeFits [] a = true) : CodeRuns allowed a :=
  naming [] h fun _ hw => absurd hw List.not_mem_nil

theorem line {text : String} (h : Runs allowed .between text .inside) : CodeRuns allowed (line text) := by
  intro l hl
  rw [List.mem_singleton.1 hl]
  exact h.append (.fixed (by decide))

theorem comment {text : String} (h : Runs allowed .between text .comment) :
    CodeRuns allowed (Go.line text) := by
  intro l hl
  rw [List.mem_singleton.1 hl]
  exact h.append (.fixed (by decide))

theorem lines {texts : List String} (h : ∀ text ∈ texts, CodeRuns allowed (Go.line text)) :
    CodeRuns allowed (lines texts) := by
  intro l hl
  obtain ⟨text, htext, rfl⟩ := List.mem_map.1 hl
  exact h text htext _ (List.mem_singleton_self _)

theorem lines_cons {text : String} {texts : List String} (h : CodeRuns allowed (Go.line text))
    (hrest : CodeRuns allowed (Go.lines texts)) : CodeRuns allowed (Go.lines (text :: texts)) :=
  h.append hrest

theorem indent (h : CodeRuns allowed a) : CodeRuns allowed (indent a) := by
  intro l hl
  obtain ⟨k, hk, rfl⟩ := List.mem_map.1 hl
  exact h k hk

theorem flatMap {α : Type} {f : α → Code} {xs : List α} (h : ∀ x ∈ xs, CodeRuns allowed (f x)) :
    CodeRuns allowed (xs.flatMap f) := by
  intro l hl
  obtain ⟨x, hx, hl⟩ := List.mem_flatMap.1 hl
  exact h x hx l hl

theorem enclosed {opening closing : String} (hopening : Runs allowed .between opening .inside)
    (h : CodeRuns allowed a) (hclosing : Runs allowed .between closing .inside) :
    CodeRuns allowed (enclosed opening a closing) := ((line hopening).append h.indent).append (line hclosing)

theorem block {head : String} (hhead : Runs allowed .between head .inside) (h : CodeRuns allowed a) :
    CodeRuns allowed (block head a) :=
  enclosed (hhead.append (.fixed (by decide))) h (.fixed (by decide))

theorem declaration {head : String} (hhead : Runs allowed .between head .inside)
    (h : CodeRuns allowed a) : CodeRuns allowed (declaration head a) :=
  (block hhead h).append (fixed (by decide))

end CodeRuns

theorem toList_render_cons (l : Line) (c : Code) :
    (render (l :: c)).toList
      = List.replicate l.depth '\t' ++ ((l.text ++ "\n").toList ++ (render c).toList) := by
  simp [render, Text.concat, Line.render]

theorem references_tabs (depth : Nat) :
    references (.word []) (List.replicate depth '\t') = []
      ∧ Place.after (.word []) (List.replicate depth '\t') = .word [] := by
  induction depth with
  | zero => exact ⟨rfl, rfl⟩
  | succ depth ih => exact ih

/-- Code refers to what its lines refer to. -/
theorem references_render {allowed : List String} {c : Code} (h : CodeRuns allowed c) :
    referencesOf (render c) = c.flatMap fun l => referencesOf (l.text ++ "\n") := by
  unfold referencesOf
  induction c with
  | nil => rfl
  | cons l c ih =>
    obtain ⟨-, hend⟩ := h l List.mem_cons_self (.word []) rfl
    rw [toList_render_cons, references_append, references_append, (references_tabs _).1,
      (references_tabs _).2, Spot.eq_place (by decide) hend, List.nil_append, List.flatMap_cons]
    exact congrArg _ (ih fun k hk => h k (List.mem_cons_of_mem _ hk))

/-- Of the packages, code refers to none but the allowed ones. -/
theorem mem_allowed_of_references {allowed : List String} {c : Code} (h : CodeRuns allowed c)
    {w : String} (hw : w ∈ referencesOf (render c)) (hpackage : w ∈ packages) : w ∈ allowed := by
  rw [references_render h] at hw
  obtain ⟨l, hl, hw⟩ := List.mem_flatMap.1 hw
  exact (h l hl _ rfl).1 w hw hpackage

/-! ## Lines -/

/-- Some line of code has a property. -/
def HasLine (p : String → Prop) (c : Code) : Prop := ∃ l ∈ c, p l.text

/-- A text refers to this. -/
def Refers (w text : String) : Prop := w ∈ referencesOf text

/-- A text holds this with a dot behind it. -/
def Spells (w text : String) : Prop := w.toList ++ ['.'] <:+: text.toList

/-- A text holds this with a dot behind it where a word may begin. -/
def Qualifies (w text : String) : Prop :=
  ∃ front rest, Runs [] .between front .between ∧ text = front ++ (w ++ "." ++ rest)

instance (p : String → Prop) [DecidablePred p] (c : Code) : Decidable (HasLine p c) :=
  inferInstanceAs (Decidable (∃ l ∈ c, p l.text))

instance (w : String) : DecidablePred (Refers w) :=
  fun text => inferInstanceAs (Decidable (w ∈ referencesOf text))

instance (w : String) : DecidablePred (Spells w) :=
  fun text => inferInstanceAs (Decidable (w.toList ++ ['.'] <:+: text.toList))

namespace HasLine

variable {p q : String → Prop} {a b : Code}

theorem mono (hpq : ∀ s, p s → q s) (h : HasLine p a) : HasLine q a := by
  obtain ⟨l, hl, hp⟩ := h
  exact ⟨l, hl, hpq _ hp⟩

theorem left (h : HasLine p a) : HasLine p (a ++ b) := by
  obtain ⟨l, hl, hp⟩ := h
  exact ⟨l, List.mem_append_left b hl, hp⟩

theorem right (h : HasLine p b) : HasLine p (a ++ b) := by
  obtain ⟨l, hl, hp⟩ := h
  exact ⟨l, List.mem_append_right a hl, hp⟩

theorem flatMap {α : Type} {f : α → Code} {xs : List α} {x : α} (hx : x ∈ xs) (h : HasLine p (f x)) :
    HasLine p (xs.flatMap f) := by
  obtain ⟨l, hl, hp⟩ := h
  exact ⟨l, List.mem_flatMap.2 ⟨x, hx, hl⟩, hp⟩

theorem lines {texts : List String} {text : String} (htext : text ∈ texts) (h : p text) :
    HasLine p (lines texts) := ⟨⟨0, text⟩, List.mem_map_of_mem htext, h⟩

theorem line {text : String} (h : p text) : HasLine p (line text) := lines (List.mem_singleton_self text) h

theorem indent (h : HasLine p a) : HasLine p (indent a) := by
  obtain ⟨l, hl, hp⟩ := h
  exact ⟨_, List.mem_map_of_mem hl, hp⟩

theorem enclosed {opening closing : String} (h : HasLine p a) : HasLine p (enclosed opening a closing) :=
  .left (.right h.indent)

theorem block {head : String} (h : HasLine p a) : HasLine p (block head a) := h.enclosed

theorem declaration {head : String} (h : HasLine p a) : HasLine p (declaration head a) := .left h.block

theorem head {head : String} (h : p (head ++ " \x7b")) : HasLine p (Go.block head a) :=
  .left (.left (.line h))

end HasLine

theorem spells_of_refers {w text : String} (h : Refers w text) : Spells w text :=
  infix_of_mem_referencesOf h

/-- A fixed text, as it is read out. -/
theorem refers_fixed {w : String} {cs : List Char} (h : w ∈ references (.word []) cs) :
    Refers w (String.ofList cs) := by
  rw [Refers, referencesOf, String.toList_ofList]
  exact h

theorem refers_append {w text : String} (h : Refers w text) (rest : String) : Refers w (text ++ rest) := by
  rw [Refers, referencesOf, String.toList_append, references_append]
  exact List.mem_append_left _ h

/-- What stands behind a part that ends between words refers to what it refers to by itself. -/
theorem refers_behind {w front text : String} (hfront : Runs [] .between front .between)
    (h : Refers w text) : Refers w (front ++ text) := by
  rw [Refers, referencesOf, String.toList_append, references_append,
    Spot.eq_place (by decide) (hfront (.word []) rfl).2]
  exact List.mem_append_right _ h

theorem refers_qualifier {w : String} (hword : ∀ c ∈ w.toList, isWordPart c = true) :
    Refers w (w ++ ".") := by
  have hdot : ".".toList = ['.'] := by decide
  rw [Refers, referencesOf, String.toList_append, hdot, (references_qualifier [] hword).1,
    List.nil_append, String.ofList_toList]
  exact List.mem_singleton_self w

namespace Qualifies

variable {w s : String}

theorem self (w rest : String) : Qualifies w (w ++ "." ++ rest) :=
  ⟨"", rest, .empty, String.empty_append.symm⟩

theorem left (h : Qualifies w s) (rest : String) : Qualifies w (s ++ rest) := by
  obtain ⟨front, behind, hfront, rfl⟩ := h
  exact ⟨front, behind ++ rest, hfront, by simp only [String.append_assoc]⟩

theorem right {front : String} (hfront : Runs [] .between front .between) (h : Qualifies w s) :
    Qualifies w (front ++ s) := by
  obtain ⟨before, behind, hbefore, rfl⟩ := h
  exact ⟨front ++ before, behind, hfront.append hbefore, by simp only [String.append_assoc]⟩

theorem spells (h : Qualifies w s) : Spells w s := by
  obtain ⟨front, rest, -, rfl⟩ := h
  exact ⟨front.toList, rest.toList, by simp⟩

theorem refers (hword : ∀ c ∈ w.toList, isWordPart c = true) (h : Qualifies w s) : Refers w s := by
  obtain ⟨front, rest, hfront, rfl⟩ := h
  exact refers_behind hfront (refers_append (refers_qualifier hword) rest)

end Qualifies

/-- Code refers to what its lines refer to. -/
theorem HasLine.refers_render {allowed : List String} {c : Code} (hc : CodeRuns allowed c) {w : String}
    (h : HasLine (Refers w) c) : Refers w (render c) := by
  obtain ⟨l, hl, hw⟩ := h
  rw [Refers, references_render hc]
  exact List.mem_flatMap.2 ⟨l, hl, refers_append hw "\n"⟩

/-! ### What code spells -/

theorem prefix_of_append_cons {pattern as bs : List Char} {sep : Char} (hsep : sep ∉ pattern)
    (h : pattern <+: as ++ sep :: bs) : pattern <+: as := by
  rcases List.prefix_or_prefix_of_prefix h (List.prefix_append as _) with has | ⟨rest, rfl⟩
  · exact has
  · rw [List.prefix_append_right_inj] at h
    cases rest with
    | nil => simp
    | cons d rest =>
      rw [(List.cons_prefix_cons.1 h).1] at hsep
      exact absurd (List.mem_append_right as List.mem_cons_self) hsep

/-- A part without the cut stands before the cut or behind it. -/
theorem infix_of_append_cons {pattern as bs : List Char} {sep : Char} (hsep : sep ∉ pattern)
    (h : pattern <:+: as ++ sep :: bs) : pattern <:+: as ∨ pattern <:+: bs := by
  induction as with
  | nil =>
    rcases List.infix_cons_iff.1 h with h | h
    · have hprefix : pattern <+: [] := prefix_of_append_cons hsep h
      exact .inl hprefix.isInfix
    · exact .inr h
  | cons a as ih =>
    rcases List.infix_cons_iff.1 h with h | h
    · have hprefix : pattern <+: a :: as := prefix_of_append_cons hsep h
      exact .inl hprefix.isInfix
    · exact (ih h).imp_left fun has => has.trans (List.infix_cons (List.infix_refl as))

/-- Code spells what its lines spell. -/
theorem HasLine.spells_render {c : Code} {w : String} (h : HasLine (Spells w) c) : Spells w (render c) := by
  obtain ⟨l, hl, hw⟩ := h
  have hline : l.text.toList <:+: (render c).toList := by
    induction c with
    | nil => cases hl
    | cons k c ih =>
      rw [toList_render_cons, String.toList_append]
      rcases List.mem_cons.1 hl with rfl | hl
      · exact ⟨List.replicate l.depth '\t', "\n".toList ++ (render c).toList, by simp⟩
      · exact (ih hl).trans ⟨List.replicate k.depth '\t' ++ (k.text.toList ++ "\n".toList), [], by simp⟩
  exact hw.trans hline

/-- A word that code spells is spelled in one of its lines. -/
theorem hasLine_of_spells_render {c : Code} {w : String} (hword : ∀ ch ∈ w.toList, isWordPart ch = true)
    (h : Spells w (render c)) : HasLine (Spells w) c := by
  have hcut {sep : Char} (hsep : isWordPart sep = false) (hdot : sep ≠ '.') :
      sep ∉ w.toList ++ ['.'] := by
    rw [List.mem_append, List.mem_singleton, not_or]
    exact ⟨fun hmem => by simp [hword _ hmem] at hsep, hdot⟩
  have hne : ¬w.toList ++ ['.'] <:+: [] := by simp
  have htabs (depth : Nat) {cs : List Char} (h : w.toList ++ ['.'] <:+: List.replicate depth '\t' ++ cs) :
      w.toList ++ ['.'] <:+: cs := by
    induction depth with
    | zero => exact h
    | succ depth ih =>
      have htail : w.toList ++ ['.'] <:+: [] ∨ w.toList ++ ['.'] <:+: List.replicate depth '\t' ++ cs :=
        infix_of_append_cons (hcut (by decide) (by decide)) h
      exact ih (htail.resolve_left hne)
  have hnewline : "\n".toList = ['\n'] := by decide
  induction c with
  | nil => exact absurd h hne
  | cons l c ih =>
    rw [Spells, toList_render_cons, String.toList_append, hnewline, List.append_assoc,
      List.singleton_append] at h
    rcases infix_of_append_cons (hcut (by decide) (by decide)) (htabs _ h) with h | h
    · exact ⟨l, List.mem_cons_self, h⟩
    · obtain ⟨k, hk, hspells⟩ := ih h
      exact ⟨k, List.mem_cons_of_mem l hk, hspells⟩

end GoScaffold.Go
