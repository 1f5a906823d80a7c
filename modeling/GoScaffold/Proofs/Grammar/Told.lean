import GoScaffold.Grammar.Expr

set_option autoImplicit false

/-! # What trees tell

A tree holds places of a text. What it tells (`Tree.told`) holds the text there instead, and only
under the rules whose text counts, so that trees of two texts can be compared. -/

namespace GoScaffold.Grammar

/-- The rules whose text counts. -/
def Rule.isTold : Rule → Bool
  | .identifier | .typeName | .stringLiteral | .defaultValue | .currentTimestamp | .parenExpr
  | .signedNumber | .bitLiteral | .bareIdent | .keyword _ => true
  | _ => false

/-- A tree with texts in place of spans. -/
inductive Told
  | node (rule : Rule) (text : List Char) (children : List Told)

namespace Told

/-- The rule at the root. -/
def rule : Told → Rule
  | .node r _ _ => r

/-- The text of the root. -/
def text : Told → List Char
  | .node _ w _ => w

/-- What is right below the root. -/
def children : Told → List Told
  | .node _ _ ts => ts

/-- The first right below the root that has the rule. -/
def child? (t : Told) (r : Rule) : Option Told := t.children.find? fun u => u.rule == r

end Told

namespace Tree

mutual

/-- What a tree tells of a text: its rules, and the text under each rule whose text counts. -/
def told (text : List Char) : Tree → Told
  | .node r start stop ts =>
    .node r (if r.isTold then Span.slice ⟨start, stop⟩ text else []) (toldAll text ts)

/-- What several trees tell. -/
def toldAll (text : List Char) : List Tree → List Told
  | [] => []
  | t :: ts => told text t :: toldAll text ts

end

variable {text text' : List Char}

theorem toldAll_eq_map (text : List Char) (ts : List Tree) :
    toldAll text ts = ts.map (told text) := by
  induction ts with
  | nil => rfl
  | cons t ts ih => rw [toldAll, ih, List.map_cons]

theorem toldAll_append (text : List Char) (ts us : List Tree) :
    toldAll text (ts ++ us) = toldAll text ts ++ toldAll text us := by
  rw [toldAll_eq_map, List.map_append, ← toldAll_eq_map, ← toldAll_eq_map]

@[simp] theorem rule_told (text : List Char) (t : Tree) : (t.told text).rule = t.rule := by
  cases t
  simp only [told, Told.rule, rule]

theorem children_told (text : List Char) (t : Tree) :
    (t.told text).children = t.children.map (told text) := by
  cases t
  simp only [told, Told.children, children, toldAll_eq_map]

theorem text_told (text : List Char) {t : Tree} (h : t.rule.isTold = true) :
    (t.told text).text = t.span.slice text := by
  cases t
  simp only [rule] at h
  simp only [told, Told.text, span, h, if_true]

theorem child?_told (text : List Char) (t : Tree) (r : Rule) :
    (t.told text).child? r = (t.child? r).map (told text) := by
  rw [Told.child?, child?, children_told, List.find?_map]
  simp only [Function.comp_def, rule_told]

/-! ## Trees that tell the same -/

theorem rule_eq_of_told {t t' : Tree} (h : t.told text = t'.told text') : t.rule = t'.rule := by
  rw [← rule_told text, h, rule_told]

theorem map_children_of_told {t t' : Tree} (h : t.told text = t'.told text') :
    t.children.map (told text) = t'.children.map (told text') := by
  rw [← children_told, h, children_told]

theorem slice_eq_of_told {t t' : Tree} (h : t.told text = t'.told text')
    (hrule : t.rule.isTold = true) : t.span.slice text = t'.span.slice text' := by
  rw [← text_told text hrule, h, text_told text' (rule_eq_of_told h ▸ hrule)]

theorem map_child?_of_told {t t' : Tree} (h : t.told text = t'.told text') (r : Rule) :
    (t.child? r).map (told text) = (t'.child? r).map (told text') := by
  rw [← child?_told, h, child?_told]

end Tree

end GoScaffold.Grammar
