import GoScaffold.Path
import GoScaffold.Proofs.Text.Names

set_option autoImplicit false

/-! # Paths by their names

Two paths are the same if they start alike and pass the same names; slashes in a row and dots between
slashes make no difference. A path that is joined to another passes the names of both
(`components_join`), and an ending without slashes goes to the last piece (`names_append`). -/

namespace GoScaffold

namespace Text

variable {α : Type} {p : α → Bool}

/-! ## Pieces -/

theorem splitWhere_append_cons {sep : α} (hsep : p sep = true) (a b : List α) :
    splitWhere p (a ++ sep :: b) = splitWhere p a ++ splitWhere p b := by
  induction a with
  | nil => simp [splitWhere, hsep]
  | cons c a ih =>
    rw [List.cons_append, splitWhere, splitWhere, ih]
    split
    · rfl
    · obtain ⟨piece, pieces, hpieces⟩ := List.exists_cons_of_ne_nil (splitWhere_ne_nil p a)
      rw [hpieces]
      rfl

theorem splitWhere_of_forall {cs : List α} (h : ∀ c ∈ cs, p c = false) : splitWhere p cs = [cs] := by
  induction cs with
  | nil => rfl
  | cons c cs ih =>
    rw [splitWhere, if_neg (by simp [h c (List.mem_cons_self ..)]),
      ih fun d hd => h d (List.mem_cons_of_mem _ hd)]

/-- What has no cut is added to the last piece. -/
theorem splitWhere_append {e : List α} (h : ∀ c ∈ e, p c = false) (cs : List α) :
    splitWhere p (cs ++ e)
      = (splitWhere p cs).dropLast ++ [(splitWhere p cs).getLast (splitWhere_ne_nil p cs) ++ e] := by
  induction cs with
  | nil => exact splitWhere_of_forall h
  | cons c cs ih =>
    obtain ⟨piece, pieces, hpieces⟩ := List.exists_cons_of_ne_nil (splitWhere_ne_nil p cs)
    simp only [List.cons_append, splitWhere, ih, hpieces]
    split
    · rfl
    · cases pieces <;> rfl

/-- The pieces hold what the text holds. -/
theorem mem_of_mem_splitWhere {cs piece : List α} (h : piece ∈ splitWhere p cs) {c : α}
    (hc : c ∈ piece) : c ∈ cs := by
  induction cs generalizing piece with
  | nil =>
    rw [splitWhere, List.mem_singleton] at h
    rwa [← h]
  | cons d cs ih =>
    obtain ⟨first, pieces, hpieces⟩ := List.exists_cons_of_ne_nil (splitWhere_ne_nil p cs)
    rw [splitWhere, hpieces] at h
    rw [hpieces] at ih
    split at h
    · rcases List.mem_cons.1 h with rfl | h
      · exact absurd hc List.not_mem_nil
      · exact List.mem_cons_of_mem _ (ih h hc)
    · rcases List.mem_cons.1 h with rfl | h
      · rcases List.mem_cons.1 hc with rfl | hc
        · exact List.mem_cons_self
        · exact List.mem_cons_of_mem _ (ih List.mem_cons_self hc)
      · exact List.mem_cons_of_mem _ (ih (List.mem_cons_of_mem _ h) hc)

/-- A text is its pieces with what it is cut at between each two. -/
theorem eq_append_of_splitWhere [BEq α] [LawfulBEq α] {sep : α} {cs first : List α}
    {rest : List (List α)} (h : splitWhere (· == sep) cs = first :: rest) :
    cs = first ++ rest.flatMap (sep :: ·) := by
  induction cs generalizing first rest with
  | nil =>
    obtain ⟨rfl, rfl⟩ := List.cons.inj h
    rfl
  | cons c cs ih =>
    obtain ⟨piece, pieces, hpieces⟩ := List.exists_cons_of_ne_nil (splitWhere_ne_nil (· == sep) cs)
    rw [splitWhere, hpieces] at h
    split at h
    · next hc =>
      obtain ⟨rfl, rfl⟩ := List.cons.inj h
      rw [eq_of_beq hc, ih hpieces]
      rfl
    · obtain ⟨rfl, rfl⟩ := List.cons.inj h
      rw [ih hpieces]
      rfl

/-- Pieces without cuts are read back from between the cuts. -/
theorem splitWhere_append_flatMap {sep : α} (hsep : p sep = true) {first : List α}
    {rest : List (List α)} (h : ∀ piece ∈ first :: rest, ∀ c ∈ piece, p c = false) :
    splitWhere p (first ++ rest.flatMap (sep :: ·)) = first :: rest := by
  induction rest generalizing first with
  | nil =>
    rw [List.flatMap_nil, List.append_nil]
    exact splitWhere_of_forall (h first List.mem_cons_self)
  | cons piece rest ih =>
    obtain ⟨hfirst, hrest⟩ := List.forall_mem_cons.1 h
    rw [List.flatMap_cons, List.cons_append, splitWhere_append_cons hsep, splitWhere_of_forall hfirst,
      ih hrest]
    rfl

/-- A text of one piece is that piece. -/
theorem eq_of_splitWhere {cs piece : List α} (h : splitWhere p cs = [piece]) : cs = piece := by
  induction cs generalizing piece with
  | nil => simpa [splitWhere] using h
  | cons c cs ih =>
    rw [splitWhere] at h
    split at h
    · exact absurd (List.cons.inj h).2 (splitWhere_ne_nil p cs)
    · obtain ⟨first, pieces, hpieces⟩ := List.exists_cons_of_ne_nil (splitWhere_ne_nil p cs)
      rw [hpieces] at h
      obtain ⟨rfl, rfl⟩ := List.cons.inj h
      rw [ih hpieces]

/-- Where a second piece follows, a cut stands behind the first. -/
theorem exists_of_splitWhere {cs piece next : List α} {more : List (List α)}
    (h : splitWhere p cs = piece :: next :: more) :
    ∃ sep rest, p sep = true ∧ cs = piece ++ sep :: rest := by
  induction cs generalizing piece with
  | nil => simp [splitWhere] at h
  | cons c cs ih =>
    rw [splitWhere] at h
    split at h
    · next hc =>
      obtain ⟨rfl, -⟩ := List.cons.inj h
      exact ⟨c, cs, hc, rfl⟩
    · obtain ⟨first, pieces, hpieces⟩ := List.exists_cons_of_ne_nil (splitWhere_ne_nil p cs)
      rw [hpieces] at h
      obtain ⟨rfl, hrest⟩ := List.cons.inj h
      obtain ⟨sep, rest, hsep, rfl⟩ := ih (hpieces.trans (by rw [hrest]))
      exact ⟨sep, rest, hsep, rfl⟩

/-! ## Joined texts -/

theorem toList_join_cons (sep s : String) (texts : List String) :
    (join sep (s :: texts)).toList
      = s.toList ++ texts.flatMap fun t => sep.toList ++ t.toList := by
  induction texts generalizing s with
  | nil => simp [join]
  | cons t texts ih => simp [join, ih]

theorem toList_join (sep : String) {texts : List String} {s : List Char} {rest : List (List Char)}
    (h : texts.map String.toList = s :: rest) :
    (join sep texts).toList = s ++ rest.flatMap fun t => sep.toList ++ t := by
  cases texts with
  | nil => simp at h
  | cons first others =>
    simp only [List.map_cons, List.cons.injEq] at h
    rw [toList_join_cons, h.1, ← h.2, List.flatMap_map]

theorem join_concat (sep : String) (texts : List String) (last : String) :
    join sep (texts ++ [last]) = concat (texts.map (· ++ sep)) ++ last := by
  induction texts with
  | nil => exact String.empty_append.symm
  | cons text texts ih =>
    have hjoin : join sep (text :: (texts ++ [last])) = text ++ sep ++ join sep (texts ++ [last]) := by
      cases texts <;> rfl
    rw [List.cons_append, hjoin, ih, List.map_cons, concat, ← String.append_assoc]

section

variable {p : Char → Bool}

/-- Joined texts hold what the texts hold and what stands between them. -/
theorem forall_join_iff {sep : String} (hsep : ∀ c ∈ sep.toList, p c = false) (texts : List String) :
    (∀ c ∈ (join sep texts).toList, p c = false) ↔ ∀ s ∈ texts, ∀ c ∈ s.toList, p c = false := by
  induction texts with
  | nil => simp [join]
  | cons s texts ih =>
    cases texts with
    | nil => simp [join]
    | cons t rest =>
      rw [join, String.toList_append, String.toList_append, List.forall_mem_append,
        List.forall_mem_append, ih, and_iff_left hsep]
      exact (List.forall_mem_cons (p := fun u : String => ∀ c ∈ u.toList, p c = false)).symm

/-- Joined texts fall into the texts again just if none of them holds a cut. -/
theorem splitWhere_join_iff (sep : Char) (hsep : p sep = true) {texts : List String}
    (hne : texts ≠ []) :
    splitWhere p (join (String.singleton sep) texts).toList = texts.map (·.toList)
      ↔ ∀ s ∈ texts, ∀ c ∈ s.toList, p c = false := by
  constructor
  · intro h s hs c hc
    have hpiece : s.toList ∈ splitWhere p (join (String.singleton sep) texts).toList := by
      rw [h]
      exact List.mem_map_of_mem hs
    exact not_of_mem_splitWhere hpiece hc
  · intro h
    induction texts with
    | nil => exact absurd rfl hne
    | cons s texts ih =>
      rw [List.forall_mem_cons] at h
      cases texts with
      | nil => exact splitWhere_of_forall h.1
      | cons t rest =>
        rw [join, String.toList_append, String.toList_append, String.toList_singleton,
          List.append_assoc, List.singleton_append, splitWhere_append_cons hsep,
          splitWhere_of_forall h.1, ih (by simp) h.2]
        rfl

end

/-- The last piece ends the text. -/
theorem getLast_splitWhere_suffix (p : α → Bool) (cs : List α) :
    (splitWhere p cs).getLast (splitWhere_ne_nil p cs) <:+ cs := by
  induction cs with
  | nil => exact List.suffix_refl []
  | cons c cs ih =>
    obtain ⟨first, pieces, hpieces⟩ := List.exists_cons_of_ne_nil (splitWhere_ne_nil p cs)
    simp only [hpieces] at ih
    by_cases hc : p c = true
    · simp only [splitWhere, hc, if_true, hpieces, List.getLast_cons_cons]
      exact ih.trans (List.suffix_cons c cs)
    · simp only [splitWhere, hc, Bool.false_eq_true, if_false, hpieces]
      cases pieces with
      | nil =>
        have hfirst : cs = first := eq_of_splitWhere hpieces
        subst hfirst
        exact List.suffix_refl (c :: cs)
      | cons next more => exact ih.trans (List.suffix_cons c cs)

end Text

namespace Path

open Text

/-! ## Names -/

/-- The pieces of a path between its slashes. -/
def pieces (path : String) : List String := (splitWhere (· == '/') path.toList).map String.ofList

/-- The names that a path passes. -/
def names (path : String) : List String := (pieces path).filter (!isVoid ·)

/-- The names before the last slash. -/
def namesBefore (path : String) : List String := (pieces path).dropLast.filter (!isVoid ·)

/-- What stands behind the last slash. -/
def lastPiece (path : String) : String := (pieces path).getLastD ""

/-- Where a path starts: at the root, at the dot that it begins with, or at neither. -/
def front (path : String) : String := (splitFront path.toList).1

/-- What paths are compared by. -/
def components (path : String) : String × List String := (front path, names path)

theorem pieces_ne_nil (path : String) : pieces path ≠ [] := by
  rw [pieces, Ne, List.map_eq_nil_iff]
  exact splitWhere_ne_nil _ _

theorem dropLast_append_lastPiece (path : String) :
    (pieces path).dropLast ++ [lastPiece path] = pieces path := by
  rw [lastPiece, List.getLastD_eq_getLast?, List.getLast?_eq_some_getLast (pieces_ne_nil path),
    Option.getD_some]
  exact List.dropLast_concat_getLast (pieces_ne_nil path)

theorem lastPiece_suffix (path : String) : (lastPiece path).toList <:+ path.toList := by
  have hsuffix := getLast_splitWhere_suffix (· == '/') path.toList
  rw [lastPiece, pieces, List.getLastD_eq_getLast?, List.getLast?_map,
    List.getLast?_eq_some_getLast (splitWhere_ne_nil _ _)]
  simpa using hsuffix

theorem lastPiece_append_slash (directory path : String) :
    lastPiece (directory ++ "/" ++ path) = lastPiece path := by
  have hpieces : pieces (directory ++ "/" ++ path) = pieces directory ++ pieces path := by
    have hslash : (directory ++ "/" ++ path).toList = directory.toList ++ '/' :: path.toList := by simp
    rw [pieces, hslash, splitWhere_append_cons (by decide), List.map_append]
    rfl
  rw [lastPiece, lastPiece, hpieces, List.getLastD_eq_getLast?, List.getLastD_eq_getLast?,
    List.getLast?_append, List.getLast?_eq_some_getLast (pieces_ne_nil path)]
  rfl

theorem names_eq_append (path : String) :
    names path = namesBefore path ++ [lastPiece path].filter (!isVoid ·) := by
  rw [names, ← dropLast_append_lastPiece, List.filter_append]
  rfl

theorem pieces_append (path : String) {ending : String} (h : '/' ∉ ending.toList) :
    pieces (path ++ ending) = (pieces path).dropLast ++ [lastPiece path ++ ending] := by
  have hending : ∀ c ∈ ending.toList, (c == '/') = false := by
    intro c hc
    rw [beq_eq_false_iff_ne]
    exact fun hslash => h (hslash ▸ hc)
  rw [lastPiece, pieces, String.toList_append, splitWhere_append hending, List.map_append, pieces,
    List.map_dropLast]
  congr 1
  rw [List.getLastD_eq_getLast?, List.getLast?_map,
    List.getLast?_eq_some_getLast (splitWhere_ne_nil _ _)]
  simp [String.ofList_append]

/-- A longer ending makes a name of the last piece, whatever this was. -/
theorem names_append (path : String) {ending : String} (hslash : '/' ∉ ending.toList)
    (hlong : 2 ≤ ending.toList.length) :
    names (path ++ ending) = namesBefore path ++ [lastPiece path ++ ending] := by
  have hnamed : isVoid (lastPiece path ++ ending) = false := by
    have hlength : 2 ≤ (lastPiece path ++ ending).toList.length := by
      rw [String.toList_append, List.length_append]
      omega
    unfold isVoid
    rw [Bool.or_eq_false_iff, beq_eq_false_iff_ne]
    constructor
    · rw [Bool.eq_false_iff]
      intro hempty
      rw [String.isEmpty_iff.1 hempty] at hlength
      exact absurd hlength (by decide)
    · intro hdot
      rw [hdot] at hlength
      exact absurd hlength (by decide)
  rw [names, pieces_append path hslash, List.filter_append, List.filter_cons_of_pos (by simp [hnamed])]
  rfl

theorem pieces_eq_singleton {path piece : String} (h : pieces path = [piece]) : path = piece := by
  rw [pieces, List.map_eq_singleton_iff] at h
  obtain ⟨cs, hcs, rfl⟩ := h
  rw [← eq_of_splitWhere hcs, String.ofList_toList]

/-- A path without slashes is one piece. -/
theorem pieces_of_notMem {path : String} (h : '/' ∉ path.toList) : pieces path = [path] := by
  have hpath : ∀ c ∈ path.toList, (c == '/') = false := by
    intro c hc
    rw [beq_eq_false_iff_ne]
    exact fun hslash => h (hslash ▸ hc)
  rw [pieces, splitWhere_of_forall hpath, List.map_singleton, String.ofList_toList]

/-! ## Starts -/

theorem splitFront_fst (cs : List Char) :
    (splitFront cs).1 = if cs.head? = some '/' then "/"
      else if cs = ['.'] ∨ cs.take 2 = ['.', '/'] then "." else "" := by
  unfold splitFront
  split
  · rfl
  · rfl
  · rfl
  · next hroot hdot hdots =>
    have hhead : cs.head? ≠ some '/' := by
      cases cs with
      | nil => simp
      | cons c cs =>
        intro h
        exact hroot cs (by simpa using h)
    have hfront : ¬(cs = ['.'] ∨ cs.take 2 = ['.', '/']) := by
      rintro (h | h)
      · exact hdot h
      · exact hdots (cs.drop 2) (by rw [← List.take_append_drop 2 cs, h]; rfl)
    rw [if_neg hhead, if_neg hfront]

theorem isAbsolute_iff (path : String) : isAbsolute path = true ↔ front path = "/" := by
  rw [front, splitFront_fst, isAbsolute, beq_iff_eq]
  split
  · next h => simp [h]
  · next h => split <;> simp [h]

theorem isAbsolute_append {path ending : String} (h : isAbsolute ending = false) :
    isAbsolute (path ++ ending) = isAbsolute path := by
  unfold isAbsolute at *
  rw [String.toList_append]
  cases path.toList with
  | nil => simpa using h
  | cons c cs => rfl

/-- What follows a path leaves its start, where no name is made of a dot. -/
theorem front_append {path rest : String} (hpath : path ≠ "")
    (hdot : path = "." → isAbsolute rest = true) : front (path ++ rest) = front path := by
  have hne : path.toList ≠ [] := by simpa using hpath
  rw [front, front, splitFront_fst, splitFront_fst, String.toList_append]
  cases hcs : path.toList with
  | nil => exact absurd hcs hne
  | cons c cs =>
    cases cs with
    | nil =>
      by_cases hc : c = '.'
      · have habsolute := hdot (String.toList_inj.1 (by rw [hcs, hc]; rfl))
        obtain ⟨more, hmore⟩ : ∃ more, rest.toList = '/' :: more := by
          rw [isAbsolute, beq_iff_eq, List.head?_eq_some_iff] at habsolute
          exact habsolute
        rw [hmore, hc]
        rfl
      · simp [hc]
    | cons d cs => simp

/-- A path that starts at neither the root nor a dot has a name before its first slash. -/
theorem eq_lastPiece {path : String} (hfront : front path = "") (hbefore : namesBefore path = []) :
    path = lastPiece path := by
  cases hpieces : (pieces path).dropLast with
  | nil =>
    refine pieces_eq_singleton ?_
    rw [← dropLast_append_lastPiece, hpieces]
    rfl
  | cons first rest =>
    exfalso
    have hvoid : isVoid first = true := by
      rw [namesBefore, hpieces, List.filter_eq_nil_iff] at hbefore
      simpa using hbefore first (List.mem_cons_self ..)
    have htwo : ∃ next more, pieces path = first :: next :: more := by
      rw [← dropLast_append_lastPiece, hpieces]
      cases rest with
      | nil => exact ⟨_, _, rfl⟩
      | cons next more => exact ⟨_, _, rfl⟩
    obtain ⟨next, more, htwo⟩ := htwo
    rw [pieces, List.map_eq_cons_iff] at htwo
    obtain ⟨piece, tail, hsplit, hfirst, htail⟩ := htwo
    obtain ⟨second, more', rfl, -, -⟩ := List.map_eq_cons_iff.1 htail
    obtain ⟨sep, rest', hsep, hpath⟩ := exists_of_splitWhere hsplit
    obtain rfl : sep = '/' := by simpa using hsep
    rw [front, splitFront_fst, hpath] at hfront
    rw [← hfirst, isVoid, Bool.or_eq_true, String.isEmpty_iff, beq_iff_eq, ← String.toList_inj,
      ← String.toList_inj, String.toList_ofList] at hvoid
    rcases hvoid with rfl | rfl <;> simp at hfront

/-! ## Joining -/

/-- Joining leads from one path on along the names of the other. -/
theorem components_join {base path : String} (hbase : base ≠ "") (hpath : isAbsolute path = false) :
    components (join base path) = (front base, names base ++ names path) := by
  have hlist : ∀ (a b : List Char), (splitWhere (· == '/') (a ++ '/' :: b))
      = splitWhere (· == '/') a ++ splitWhere (· == '/') b :=
    fun a b => splitWhere_append_cons (by simp) a b
  have hnames (a : String) (text : String) (h : text.toList = a.toList ++ '/' :: path.toList) :
      names text = names a ++ names path := by
    simp [names, pieces, h, hlist, List.filter_append]
  rw [join, if_neg (by simp [hpath])]
  split
  · next hend =>
    -- The slash that ends the base parts it from the path.
    obtain ⟨a, ha⟩ : ∃ a, base.toList = a ++ ['/'] := by
      rcases Bool.or_eq_true_iff.1 hend with hempty | hlast
      · exact absurd (String.isEmpty_iff.1 hempty) hbase
      · exact List.getLast?_eq_some_iff.1 (by simpa using hlast)
    have hbaseNames : names base = names (String.ofList a) := by
      have hvoid : [String.ofList []].filter (!isVoid ·) = [] := by decide
      simp [names, pieces, ha, hlist, List.filter_append, splitWhere, hvoid]
    have hsame := hnames (String.ofList a) (base ++ path) (by simp [ha])
    have hdot : base ≠ "." := by
      intro h
      rw [h] at ha
      have := congrArg List.getLast? ha
      simp at this
    rw [components, front_append hbase fun h => absurd h hdot, hsame, hbaseNames]
  · have hsame := hnames base (base ++ "/" ++ path) (by simp)
    rw [components, hsame, String.append_assoc, front_append hbase fun _ => by simp [isAbsolute]]

theorem join_of_isAbsolute (base : String) {path : String} (h : isAbsolute path = true) :
    join base path = path := if_pos h

theorem join_empty (path : String) : join "" path = path := by
  unfold join
  split
  · rfl
  · simp

end Path

end GoScaffold
