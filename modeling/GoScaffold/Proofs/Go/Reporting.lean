import GoScaffold.Proofs.Go.Calls
import GoScaffold.Proofs.Text.Paths

set_option autoImplicit false

/-! # Code under the two conventions

Code that returns its failures, and the code that panics on them instead. The two are the same but
for the statements that give up, check an error or end a function (`Site`), and where one of these
stands in the first, its equivalent stands in the second (`Counterpart`). So what is read off the
lines is the same: what is set, what is tested, what is called, and which errors are reported. -/

namespace GoScaffold.Go

open Text

/-! ## Reading lines -/

/-- Whether a line begins with one of some texts. -/
def beginsWith (starts : List String) (cs : List Char) : Bool :=
  starts.any fun start => start.toList.isPrefixOf cs

/-- The line that a check of `err` begins with. -/
def errorTest : List Char := "if err != nil \x7b".toList

/-- Whether a line is about failures: it returns, panics or checks. -/
def isReport (cs : List Char) : Bool :=
  beginsWith ["return ", "panic(", "assertErrorNil("] cs || cs == errorTest

/-- The line, if it sets the statement, a condition, or a list that these are made from. -/
def setting? (cs : List Char) : Option (List Char) :=
  if beginsWith ["query ", "where ", "columns ", "sets ", "conditions ", "args "] cs then some cs
  else none

/-- The line, if it tests something other than `err`. -/
def test? (cs : List Char) : Option (List Char) :=
  if beginsWith ["if "] cs && cs != errorTest then some cs else none

/-- The expression that a line calls and takes an error from: all that it returns, or what it gives
names to of which the last is `err`. -/
def calledExpr? (cs : List Char) : Option (List Char) :=
  match dropPrefix? "return ".toList cs with
  | some rest => if cs.getLast? = some ')' then some rest else none
  | none =>
    if "err ".toList.isSuffixOf (cs.takeWhile isTargetChar) then
      dropPrefix? ":= ".toList (cs.dropWhile isTargetChar)
    else none

/-- The last word of a line. -/
def lastWord (cs : List Char) : List Char := (cs.reverse.takeWhile (· != ' ')).reverse

/-- The error that a line returns, if it returns one; that of a call is `err`. -/
def returnedError? (cs : List Char) : Option (List Char) :=
  if beginsWith ["return "] cs then
    if cs.getLast? = some ')' then some "err".toList
    else if lastWord cs = "nil".toList then none
    else some (lastWord cs)
  else none

/-- The error that a line panics with, if it panics on one. -/
def raisedError? (cs : List Char) : Option (List Char) :=
  (dropPrefix? "panic(".toList cs <|> dropPrefix? "assertErrorNil(".toList cs).bind
    (dropLastChar? ')')

/-- What is read off the lines of code, in order. -/
def readLines {α : Type} (read : List Char → Option α) (c : Code) : List α :=
  c.filterMap fun l => read l.text.toList

section

variable {α : Type} (read : List Char → Option α)

@[simp] theorem readLines_append (a b : Code) :
    readLines read (a ++ b) = readLines read a ++ readLines read b := List.filterMap_append

theorem readLines_flatMap {β : Type} (f : β → Code) (xs : List β) :
    readLines read (xs.flatMap f) = xs.flatMap fun x => readLines read (f x) := by
  rw [readLines, List.filterMap_flatMap]
  rfl

theorem readLines_indent (c : Code) : readLines read (indent c) = readLines read c := by
  rw [readLines, indent, List.filterMap_map]
  rfl

@[simp] theorem readLines_line (text : String) :
    readLines read (line text) = (read text.toList).toList := by
  rw [readLines, line, List.filterMap_cons]
  cases read text.toList <;> rfl

@[simp] theorem readLines_block (head : String) (body : Code) :
    readLines read (block head body)
      = (read (head ++ " \x7b").toList).toList ++ readLines read body ++ (read ['\x7d']).toList := by
  rw [block, enclosed, readLines_append, readLines_append, readLines_indent, readLines_line,
    readLines_line]
  rfl

end

/-! ## Counterparts -/

/-- What a result of a type is beside an error. -/
def zeroValue (type : String) : String :=
  if type.toList.head? = some '*' ∨ type.toList.head? = some '[' then "nil" else "0"

/-- Names of the values that a function yields. -/
def AreVariables (names : List String) : Prop :=
  names ≠ [] ∧ ∀ name ∈ names, name ≠ "" ∧ ∀ c ∈ name.toList, c.isLower = true

instance (names : List String) : Decidable (AreVariables names) :=
  inferInstanceAs
    (Decidable (names ≠ [] ∧ ∀ name ∈ names, name ≠ "" ∧ ∀ c ∈ name.toList, c.isLower = true))

/-- A statement of a function whose results besides the error have the types `types`: as the
function has it that returns its failures, and as the one that panics has it. -/
inductive Site (types : List String) : Code → Code → Prop
  /-- Any other line is the same in both. -/
  | same (l : Line) (h : isReport l.text.toList = false) : Site types [l] [l]
  /-- Gives up with an error. -/
  | raise (error : String) (h : IsName error) (hempty : error ≠ "") (hnil : error ≠ "nil") :
      Site types (line ("return " ++ join ", " (types.map zeroValue ++ [error])))
        (line ("panic(" ++ error ++ ")"))
  /-- Gives up if `err` is set. -/
  | check :
      Site types (block "if err != nil" (line ("return " ++ join ", " (types.map zeroValue ++ ["err"]))))
        (line "assertErrorNil(err)")
  /-- Ends with a call that yields the results and an error. -/
  | forward (names : List String) (call : String) (hnames : AreVariables names)
      (hlength : names.length = types.length) (hcall : call.toList.getLast? = some ')') :
      Site types (line ("return " ++ call))
        (line (join ", " names ++ ", err := " ++ call) ++ line "assertErrorNil(err)"
          ++ line ("return " ++ join ", " names))
  /-- Ends with the results. -/
  | succeed (names : List String) (hnames : AreVariables names) (hlength : names.length = types.length) :
      Site types (line ("return " ++ join ", " (names ++ ["nil"])))
        (line ("return " ++ join ", " names))

/-- Code that returns its failures, and code that panics on them, statement by statement. -/
inductive Counterpart (types : List String) : Code → Code → Prop
  | nil : Counterpart types [] []
  | site {c d : Code} (h : Site types c d) : Counterpart types c d
  | append {c c' d d' : Code} (h : Counterpart types c d) (h' : Counterpart types c' d') :
      Counterpart types (c ++ c') (d ++ d')
  | indent {c d : Code} (h : Counterpart types c d) :
      Counterpart types (indent c) (indent d)

/-! ## Fronts and ends of lines -/

/-- Whether a line with this front begins with none of some texts. -/
def ruledOut (starts : List String) (front : List Char) : Bool :=
  starts.all fun start => !compatible start.toList front

theorem beginsWith_append {starts : List String} {front : List Char}
    (h : ruledOut starts front = true) (rest : List Char) :
    beginsWith starts (front ++ rest) = false := by
  rw [beginsWith, List.any_eq_false]
  intro start hstart hprefix
  obtain ⟨more, hmore⟩ := List.isPrefixOf_iff_prefix.1 hprefix
  have hfree := List.all_eq_true.1 h start hstart
  rw [compatible_of_append hmore] at hfree
  cases hfree

theorem beginsWith_start {starts : List String} {start : String} (h : start ∈ starts) (rest : String) :
    beginsWith starts (start ++ rest).toList = true := by
  refine List.any_eq_true.2 ⟨start, h, ?_⟩
  rw [String.toList_append, List.isPrefixOf_iff_prefix]
  exact List.prefix_append ..

/-- Names with a comma after them are no beginning that goes on otherwise. -/
theorem beginsWith_names {starts : List String}
    (h : ∀ start ∈ starts, (start.toList.dropWhile (·.isLower)).head?.any (· != ',') = true)
    {name : List Char} (hname : ∀ c ∈ name, c.isLower = true) (rest : List Char) :
    beginsWith starts (name ++ ',' :: rest) = false := by
  rw [beginsWith, List.any_eq_false]
  intro start hstart hprefix
  obtain ⟨more, hmore⟩ := List.isPrefixOf_iff_prefix.1 hprefix
  have hstop := h start hstart
  obtain ⟨d, after, hafter⟩ : ∃ d after, start.toList.dropWhile (·.isLower) = d :: after := by
    cases hdrop : start.toList.dropWhile (·.isLower) with
    | nil =>
      rw [hdrop] at hstop
      cases hstop
    | cons d after => exact ⟨d, after, rfl⟩
  -- Both texts have the same letters in front, so what comes after these is the comma.
  have hdrop := congrArg (List.dropWhile (·.isLower)) hmore
  rw [List.dropWhile_append, hafter, List.dropWhile_append_of_pos hname,
    List.dropWhile_cons_of_neg (by decide), if_neg (by simp), List.cons_append, List.cons.injEq] at hdrop
  rw [hafter, hdrop.1] at hstop
  simp at hstop

theorem beginsWith_of_subset {starts fewer : List String} {cs : List Char}
    (h : beginsWith starts cs = false) (hsubset : fewer ⊆ starts) : beginsWith fewer cs = false :=
  List.any_eq_false.2 fun start hstart => List.any_eq_false.1 h start (hsubset hstart)

theorem dropPrefix?_of_beginsWith {starts : List String} {cs : List Char}
    (h : beginsWith starts cs = false) {start : String} (hstart : start ∈ starts) :
    dropPrefix? start.toList cs = none := by
  rw [Option.eq_none_iff_forall_ne_some]
  intro rest hrest
  have hprefix : start.toList.isPrefixOf cs = true :=
    List.isPrefixOf_iff_prefix.2 ⟨rest, (dropPrefix?_eq_some.1 hrest).symm⟩
  exact List.any_eq_false.1 h start hstart hprefix

theorem getLast?_append_name {front : List Char} {name : String} (hname : IsName name)
    (hempty : name ≠ "") : (front ++ name.toList).getLast? ≠ some ')' := by
  obtain ⟨c, hc⟩ : ∃ c, name.toList.getLast? = some c := by
    have hne : name.toList ≠ [] := by simpa using hempty
    exact ⟨_, List.getLast?_eq_some_getLast hne⟩
  rw [List.getLast?_append, hc, Option.some_or, ne_eq, Option.some.injEq]
  rintro rfl
  exact absurd (hname _ (List.mem_of_getLast? hc)) (by decide)

/-- The last word is what stands after a blank and holds none. -/
theorem lastWord_append {front : List Char} {name : String} (hname : IsName name)
    (hfront : front.getLast? = some ' ') : lastWord (front ++ name.toList) = name.toList := by
  have hword : ∀ c ∈ name.toList.reverse, (c != ' ') = true := by
    intro c hc
    have := hname c (List.mem_reverse.1 hc)
    simp only [bne_iff_ne, ne_eq]
    rintro rfl
    exact absurd this (by decide)
  obtain ⟨before, rfl⟩ : ∃ before, front = before ++ [' '] := List.getLast?_eq_some_iff.1 hfront
  rw [lastWord, List.reverse_append, List.takeWhile_append_of_pos hword, List.reverse_append]
  simp

/-- The values before the last one, as they are returned. -/
def returnFront (texts : List String) : List Char :=
  "return ".toList ++ (concat (texts.map (· ++ ", "))).toList

theorem toList_return (texts : List String) (last : String) :
    ("return " ++ join ", " (texts ++ [last])).toList = returnFront texts ++ last.toList := by
  unfold returnFront
  rw [join_concat, String.toList_append, String.toList_append]
  exact (List.append_assoc ..).symm

theorem getLast?_returnFront (texts : List String) : (returnFront texts).getLast? = some ' ' := by
  rcases List.eq_nil_or_concat texts with rfl | ⟨before, text, rfl⟩
  · decide
  · have htext : (concat ([text].map (· ++ ", "))).toList = (text ++ ",").toList ++ [' '] := by
      simp [concat]
    unfold returnFront
    rw [List.concat_eq_append, List.map_append, concat_append, String.toList_append, htext,
      ← List.append_assoc, ← List.append_assoc, List.getLast?_concat]

/-! ## What counterparts have in common -/

section

variable {types : List String}

theorem Counterpart.readLines_eq {α : Type} {read read' : List Char → Option α} {c d : Code}
    (h : Counterpart types c d)
    (hsite : ∀ c d, Site types c d → readLines read c = readLines read' d) :
    readLines read c = readLines read' d := by
  induction h with
  | nil => rfl
  | site h => exact hsite _ _ h
  | append _ _ ih ih' => rw [readLines_append, readLines_append, ih, ih']
  | indent _ ih => rw [readLines_indent, readLines_indent, ih]

/-- Names, `err` and a call: the first name has a comma after it. -/
theorem toList_assign {names : List String} (h : AreVariables names) (call : String) :
    ∃ name rest, (∀ c ∈ name, c.isLower = true)
      ∧ (join ", " names ++ ", err := " ++ call).toList = name ++ ',' :: rest := by
  cases names with
  | nil => exact absurd rfl h.1
  | cons name names =>
    have hname := (h.2 name List.mem_cons_self).2
    cases names with
    | nil => exact ⟨name.toList, (" err := " ++ call).toList, hname, by simp [join]⟩
    | cons name' names =>
      exact ⟨name.toList, (" " ++ join ", " (name' :: names) ++ ", err := " ++ call).toList, hname,
        by simp [join]⟩

/-- What reads nothing off the lines that the conventions differ in. -/
structure IsSilent {α : Type} (read : List Char → Option α) : Prop where
  onReturn : ∀ rest, read ("return " ++ rest).toList = none
  onPanic : ∀ rest, read ("panic(" ++ rest).toList = none
  onAssert : read "assertErrorNil(err)".toList = none
  onTest : read errorTest = none
  onClose : read ['\x7d'] = none
  onNames : ∀ name rest, (∀ c ∈ name, c.isLower = true) → read (name ++ ',' :: rest) = none

section

variable {α : Type} {read : List Char → Option α}

theorem IsSilent.onAssign (h : IsSilent read) {names : List String} (hnames : AreVariables names)
    (call : String) : read (join ", " names ++ ", err := " ++ call).toList = none := by
  obtain ⟨name, rest, hname, htext⟩ := toList_assign hnames call
  rw [htext, h.onNames name rest hname]

theorem IsSilent.onCheck (h : IsSilent read) (rest : String) :
    readLines read (block "if err != nil" (line ("return " ++ rest))) = [] := by
  have hopen : read ("if err != nil" ++ " \x7b").toList = none := h.onTest
  rw [readLines_block, readLines_line, h.onReturn, hopen, h.onClose]
  rfl

theorem Site.readLines_eq (hsilent : IsSilent read) {c d : Code} (h : Site types c d) :
    readLines read c = readLines read d := by
  cases h with
  | same => rfl
  | raise error =>
    rw [readLines_line, readLines_line, hsilent.onReturn, String.append_assoc, hsilent.onPanic]
  | check =>
    rw [hsilent.onCheck, readLines_line, hsilent.onAssert]
    rfl
  | forward names call hnames =>
    rw [readLines_append, readLines_append, readLines_line, readLines_line, readLines_line,
      readLines_line, hsilent.onReturn, hsilent.onReturn, hsilent.onAssert, hsilent.onAssign hnames]
    rfl
  | succeed names =>
    rw [readLines_line, readLines_line, hsilent.onReturn, hsilent.onReturn]

end

/-- What only looks at how a line begins is silent if no beginning is about failures. -/
theorem isSilent_beginsWith {starts : List String} (hreturn : ruledOut starts "return ".toList = true)
    (hpanic : ruledOut starts "panic(".toList = true)
    (hassert : beginsWith starts "assertErrorNil(err)".toList = false)
    (htest : beginsWith starts errorTest = false) (hclose : beginsWith starts ['\x7d'] = false)
    (hnames : ∀ start ∈ starts, (start.toList.dropWhile (·.isLower)).head?.any (· != ',') = true) :
    IsSilent fun cs => if beginsWith starts cs then some cs else none where
  onReturn rest := by
    rw [String.toList_append, beginsWith_append hreturn]
    rfl
  onPanic rest := by
    rw [String.toList_append, beginsWith_append hpanic]
    rfl
  onAssert := by
    rw [hassert]
    rfl
  onTest := by
    rw [htest]
    rfl
  onClose := by
    rw [hclose]
    rfl
  onNames name rest hname := by
    rw [beginsWith_names hnames hname]
    rfl

theorem isSilent_setting? : IsSilent setting? :=
  isSilent_beginsWith (by decide) (by decide) (by decide) (by decide) (by decide) (by decide)

theorem isSilent_test? : IsSilent test? where
  onReturn rest := by
    rw [test?, String.toList_append, beginsWith_append (by decide)]
    rfl
  onPanic rest := by
    rw [test?, String.toList_append, beginsWith_append (by decide)]
    rfl
  onAssert := by decide
  onTest := by decide
  onClose := by decide
  onNames name rest hname := by
    rw [test?, beginsWith_names (by decide) hname]
    rfl

/-! ### Calls -/

/-- Several values that end with a name are returned without a call. -/
theorem getLast?_return (texts : List String) {last : String} (hname : IsName last)
    (hempty : last ≠ "") :
    ("return " ++ join ", " (texts ++ [last])).toList.getLast? ≠ some ')' := by
  rw [toList_return]
  exact getLast?_append_name hname hempty

theorem AreVariables.getLast?_return {names : List String} (h : AreVariables names) :
    ("return " ++ join ", " names).toList.getLast? ≠ some ')' := by
  rcases List.eq_nil_or_concat names with rfl | ⟨before, last, rfl⟩
  · exact absurd rfl h.1
  · obtain ⟨hempty, hlower⟩ := h.2 last (by simp)
    rw [List.concat_eq_append]
    have hname : IsName last := fun c hc =>
      isNameChar_of_isAlphanum (isAlphanum_iff.2 (.inr (.inr (isLower_iff.1 (hlower c hc)))))
    exact Go.getLast?_return before hname hempty

theorem calledExpr?_return_call {call : String} (h : call.toList.getLast? = some ')') :
    calledExpr? ("return " ++ call).toList = some call.toList := by
  rw [calledExpr?, String.toList_append, dropPrefix?_eq_some.2 rfl]
  simp only
  rw [List.getLast?_append, h, Option.some_or, if_pos rfl]

theorem calledExpr?_return_none {rest : String}
    (h : ("return " ++ rest).toList.getLast? ≠ some ')') :
    calledExpr? ("return " ++ rest).toList = none := by
  have hdrop : dropPrefix? "return ".toList ("return " ++ rest).toList = some rest.toList := by
    rw [String.toList_append, dropPrefix?_eq_some]
  rw [calledExpr?, hdrop]
  exact if_neg h

/-- A line is no call if it does not return and gives no name to an error. -/
theorem calledExpr?_eq_none {cs : List Char} (hreturn : beginsWith ["return "] cs = false)
    (herr : "err ".toList.isSuffixOf (cs.takeWhile isTargetChar) = false) :
    calledExpr? cs = none := by
  rw [calledExpr?, dropPrefix?_of_beginsWith hreturn (by simp)]
  simp only [herr]
  rfl

theorem isTargetChar_join {names : List String}
    (h : ∀ name ∈ names, ∀ c ∈ name.toList, c.isLower = true) :
    ∀ c ∈ (join ", " names).toList, isTargetChar c = true := by
  induction names with
  | nil => exact fun c hc => absurd hc (by simp [join])
  | cons name names ih =>
    have hname : ∀ c ∈ name.toList, isTargetChar c = true := by
      intro c hc
      rw [isTargetChar, h name List.mem_cons_self c hc]
      rfl
    cases names with
    | nil => exact hname
    | cons next names =>
      intro c hc
      have hjoin : join ", " (name :: next :: names) = name ++ ", " ++ join ", " (next :: names) := rfl
      rw [hjoin, String.toList_append, String.toList_append, List.mem_append, List.mem_append] at hc
      rcases hc with (hc | hc) | hc
      · exact hname c hc
      · have hcomma : ∀ c ∈ ", ".toList, isTargetChar c = true := by decide
        exact hcomma c hc
      · exact ih (fun other hother => h other (List.mem_cons_of_mem _ hother)) c hc

theorem calledExpr?_assign {names : List String} (h : AreVariables names) (call : String) :
    calledExpr? (join ", " names ++ ", err := " ++ call).toList = some call.toList := by
  obtain ⟨name, rest, hname, htext⟩ := toList_assign h call
  have hreturn : beginsWith ["return "] (join ", " names ++ ", err := " ++ call).toList = false := by
    rw [htext]
    exact beginsWith_names (by decide) hname rest
  have htargets : ∀ c ∈ (join ", " names).toList ++ ", err ".toList, isTargetChar c = true := by
    intro c hc
    rcases List.mem_append.1 hc with hc | hc
    · exact isTargetChar_join (fun name hname => (h.2 name hname).2) c hc
    · have hall : ∀ c ∈ ", err ".toList, isTargetChar c = true := by decide
      exact hall c hc
  have hsplit : (join ", " names ++ ", err := " ++ call).toList
      = (join ", " names).toList ++ ", err ".toList ++ (":= ".toList ++ call.toList) := by
    simp
  have htake : (join ", " names ++ ", err := " ++ call).toList.takeWhile isTargetChar
      = (join ", " names).toList ++ ", err ".toList := by
    rw [hsplit, List.takeWhile_append_of_pos htargets]
    simp [isTargetChar]
  have hdrop : (join ", " names ++ ", err := " ++ call).toList.dropWhile isTargetChar
      = ":= ".toList ++ call.toList := by
    rw [hsplit, List.dropWhile_append_of_pos htargets]
    simp [isTargetChar]
  have hsuffix : "err ".toList.isSuffixOf ((join ", " names).toList ++ ", err ".toList) = true :=
    List.isSuffixOf_iff_suffix.2 ⟨(join ", " names).toList ++ ", ".toList, by simp⟩
  rw [calledExpr?, dropPrefix?_of_beginsWith hreturn (by simp), htake, hdrop]
  simp only [hsuffix, if_true]
  exact dropPrefix?_eq_some.2 rfl

theorem Site.calls_eq {c d : Code} (h : Site types c d) :
    readLines calledExpr? c = readLines calledExpr? d := by
  have hassert : calledExpr? "assertErrorNil(err)".toList = none := by decide
  cases h with
  | same => rfl
  | raise error hname hempty =>
    have hpanic : calledExpr? ("panic(" ++ error ++ ")").toList = none := by
      have htext : ("panic(" ++ error ++ ")").toList = "panic".toList ++ '(' :: (error ++ ")").toList := by
        simp
      rw [htext]
      refine calledExpr?_eq_none (beginsWith_append (by decide) _) ?_
      rw [List.takeWhile_append_of_pos (by decide), List.takeWhile_cons_of_neg (by decide)]
      decide
    rw [readLines_line, readLines_line, hpanic,
      calledExpr?_return_none (getLast?_return _ hname hempty)]
  | check =>
    have hopen : calledExpr? ("if err != nil" ++ " \x7b").toList = none := by decide
    have hclose : calledExpr? ['\x7d'] = none := by decide
    rw [readLines_block, readLines_line, readLines_line, hassert, hopen, hclose,
      calledExpr?_return_none (getLast?_return _ (by decide) (by decide))]
    rfl
  | forward names call hnames hlength hcall =>
    rw [readLines_append, readLines_append, readLines_line, readLines_line, readLines_line,
      readLines_line, calledExpr?_return_call hcall, calledExpr?_assign hnames, hassert,
      calledExpr?_return_none hnames.getLast?_return]
    rfl
  | succeed names hnames =>
    rw [readLines_line, readLines_line, calledExpr?_return_none hnames.getLast?_return,
      calledExpr?_return_none (getLast?_return _ (by decide) (by decide))]

/-! ### Errors -/

theorem returnedError?_eq_none {cs : List Char} (h : beginsWith ["return "] cs = false) :
    returnedError? cs = none := by
  rw [returnedError?, h]
  rfl

/-- The last of several values is an error, unless it is `nil`. -/
theorem returnedError?_return (texts : List String) {last : String} (hname : IsName last)
    (hempty : last ≠ "") :
    returnedError? ("return " ++ join ", " (texts ++ [last])).toList
      = if last = "nil" then none else some last.toList := by
  have hlast : lastWord ("return " ++ join ", " (texts ++ [last])).toList = last.toList := by
    rw [toList_return]
    exact lastWord_append hname (getLast?_returnFront texts)
  rw [returnedError?, beginsWith_start (by simp), hlast, if_pos rfl,
    if_neg (getLast?_return texts hname hempty)]
  simp only [String.toList_inj]

theorem returnedError?_return_call {call : String} (h : call.toList.getLast? = some ')') :
    returnedError? ("return " ++ call).toList = some "err".toList := by
  have hlast : ("return " ++ call).toList.getLast? = some ')' := by
    rw [String.toList_append, List.getLast?_append, h]
    rfl
  rw [returnedError?, beginsWith_start (by simp), if_pos rfl, if_pos hlast]

theorem raisedError?_panic (error : String) :
    raisedError? ("panic(" ++ error ++ ")").toList = some error.toList := by
  have hdrop : dropPrefix? "panic(".toList ("panic(" ++ error ++ ")").toList
      = some (error.toList ++ [')']) := by
    rw [dropPrefix?_eq_some]
    simp
  rw [raisedError?, hdrop]
  exact dropLastChar?_eq_some.2 rfl

theorem raisedError?_eq_none {cs : List Char}
    (h : beginsWith ["panic(", "assertErrorNil("] cs = false) : raisedError? cs = none := by
  rw [raisedError?, dropPrefix?_of_beginsWith h (by simp), dropPrefix?_of_beginsWith h (by simp)]
  rfl

theorem raisedError?_return (rest : String) : raisedError? ("return " ++ rest).toList = none := by
  rw [String.toList_append]
  exact raisedError?_eq_none (beginsWith_append (by decide) _)

/-- A line that is not about failures neither returns an error nor panics on one. -/
theorem errors_of_not_isReport {cs : List Char} (h : isReport cs = false) :
    returnedError? cs = none ∧ raisedError? cs = none := by
  rw [isReport, Bool.or_eq_false_iff] at h
  exact ⟨returnedError?_eq_none (beginsWith_of_subset h.1 (by simp)),
    raisedError?_eq_none (beginsWith_of_subset h.1 (by simp))⟩

/-- The errors that one returns are those that the other panics on. -/
theorem Site.errors_eq {c d : Code} (h : Site types c d) :
    readLines returnedError? c = readLines raisedError? d := by
  have hassert : raisedError? "assertErrorNil(err)".toList = some "err".toList := by decide
  cases h with
  | same l hreport =>
    obtain ⟨hreturned, hraised⟩ := errors_of_not_isReport hreport
    rw [readLines, readLines, List.filterMap_cons, List.filterMap_cons, hreturned, hraised]
    rfl
  | raise error hname hempty hnil =>
    rw [readLines_line, readLines_line, returnedError?_return _ hname hempty, if_neg hnil,
      raisedError?_panic]
  | check =>
    have hopen : returnedError? ("if err != nil" ++ " \x7b").toList = none := by decide
    have hclose : returnedError? ['\x7d'] = none := by decide
    rw [readLines_block, readLines_line, readLines_line, hassert, hopen, hclose,
      returnedError?_return _ (by decide) (by decide)]
    rfl
  | forward names call hnames hlength hcall =>
    -- One returns the error of the call, the other names it `err` and checks it.
    obtain ⟨name, rest, hname, htext⟩ := toList_assign hnames call
    have hassign : raisedError? (join ", " names ++ ", err := " ++ call).toList = none := by
      rw [htext]
      exact raisedError?_eq_none (beginsWith_names (by decide) hname rest)
    rw [readLines_append, readLines_append, readLines_line, readLines_line, readLines_line,
      readLines_line, returnedError?_return_call hcall, hassign, hassert, raisedError?_return]
    rfl
  | succeed names hnames =>
    rw [readLines_line, readLines_line, returnedError?_return _ (by decide) (by decide), if_pos rfl,
      raisedError?_return]

end

end GoScaffold.Go

namespace GoScaffold.Convention

open Go Text

theorem returning_of_ne_nil {values : List String} (h : values ≠ []) :
    returning values = line ("return " ++ join ", " values) := by
  cases values with
  | nil => exact absurd rfl h
  | cons value values => rfl

theorem returning_concat (values : List String) (last : String) :
    returning (values ++ [last]) = line ("return " ++ join ", " (values ++ [last])) :=
  returning_of_ne_nil (by simp)

/-! ## What is read off the statements that report failures -/

section

variable {α : Type} {read : List Char → Option α} (h : IsSilent read) (c : Convention)

include h

theorem readLines_fail (zeros : List String) (error : String) :
    readLines read (c.fail zeros error) = [] := by
  cases c with
  | returned =>
    rw [fail, returning_concat, readLines_line, h.onReturn]
    rfl
  | panicking =>
    rw [fail, readLines_line, String.append_assoc, h.onPanic]
    rfl

theorem readLines_check (zeros : List String) : readLines read (c.check zeros) = [] := by
  cases c with
  | returned => rw [check, returning_concat, h.onCheck]
  | panicking =>
    rw [check, readLines_line, h.onAssert]
    rfl

theorem readLines_forward {names : List String} (hnames : AreVariables names) (call : String) :
    readLines read (c.forward names call) = [] := by
  cases names with
  | nil => exact absurd rfl hnames.1
  | cons name names =>
    cases c with
    | returned =>
      rw [forward, readLines_line, h.onReturn]
      rfl
    | panicking =>
      simp only [forward]
      rw [returning_of_ne_nil hnames.1, readLines_append, readLines_append, readLines_line,
        readLines_line, readLines_line, h.onAssign hnames, h.onAssert, h.onReturn]
      rfl

theorem readLines_succeed {values : List String} (hvalues : values ≠ []) :
    readLines read (c.succeed values) = [] := by
  cases c with
  | returned =>
    rw [succeed, returning_concat, readLines_line, h.onReturn]
    rfl
  | panicking =>
    rw [succeed, returning_of_ne_nil hvalues, readLines_line, h.onReturn]
    rfl

end

end GoScaffold.Convention
