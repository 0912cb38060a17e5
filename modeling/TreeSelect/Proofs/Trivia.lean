import Mathlib.Logic.Relation
import TreeSelect.Matching.Chain
import TreeSelect.Proofs.SelectionMap

/-! Trivia: the children of a node that are neither seen nor in a field, such as comments and
punctuation. A tree may be stripped of them, with all that lies below them, and of the marks of faults:
a selector has the same matches in what is left, so it has the same in all trees that trivia alone
tell apart. -/
namespace TreeSelect.Tree

/-- A child that is neither seen nor reached by a field, whatever lies below it. -/
def Node.isTrivia (n : Node) : Bool :=
  !n.isCandidate && n.label.field.isNone

/-- A label without the marks of faults. -/
def Label.plain (l : Label) : Label :=
  { l with missing := false, hasError := false }

/-- One piece of trivia is put among the children of some node of a tree. All labels stay as they are,
but for the marks of faults on the way to that node. -/
inductive Inserted : Node → Node → Prop
  | here (l l' : Label) (before after : List Node) (t : Node) :
      l.plain = l'.plain → t.isTrivia = true →
      Inserted ⟨l, before ++ after⟩ ⟨l', before ++ t :: after⟩
  | deeper (l l' : Label) (before after : List Node) (c c' : Node) :
      l.plain = l'.plain → Inserted c c' →
      Inserted ⟨l, before ++ c :: after⟩ ⟨l', before ++ c' :: after⟩

/-- Trees that become one another when trivia are put in and taken away. -/
def SameButTrivia : Node → Node → Prop :=
  Relation.EqvGen Inserted

mutual

/-- A tree without trivia and marks of faults. -/
def Node.bare : Node → Node
  | ⟨label, children⟩ => ⟨label.plain, bareAmong children⟩

def bareAmong : List Node → List Node
  | [] => []
  | c :: cs => if c.isTrivia then bareAmong cs else c.bare :: bareAmong cs

end

theorem bareAmong_append (cs ds : List Node) :
    bareAmong (cs ++ ds) = bareAmong cs ++ bareAmong ds := by
  induction cs with
  | nil => rfl
  | cons c cs ih =>
    rw [List.cons_append, bareAmong, bareAmong, ih]
    split <;> rfl

theorem bareAmong_insert (before after : List Node) (t : Node) (ht : t.isTrivia = true) :
    bareAmong (before ++ t :: after) = bareAmong (before ++ after) := by
  rw [bareAmong_append, bareAmong_append, bareAmong, if_pos ht]

theorem isTrivia_bare (n : Node) : n.bare.isTrivia = n.isTrivia := by
  cases n
  rfl

/-- Putting in a piece of trivia leaves the bare tree as it is. -/
theorem Inserted.bare_eq {n n' : Node} (h : Inserted n n') : n.bare = n'.bare := by
  induction h with
  | here l l' before after t hl ht =>
    rw [Node.bare, Node.bare, hl, bareAmong_insert before after t ht]
  | deeper l l' before after c c' hl hc ih =>
    -- what is put in below a child leaves its label, so it stays trivia or stays none
    have ht : c.isTrivia = c'.isTrivia := by rw [← isTrivia_bare c, ih, isTrivia_bare]
    rw [Node.bare, Node.bare, hl, bareAmong_append, bareAmong_append, bareAmong, bareAmong, ht, ih]

theorem SameButTrivia.bare_eq {n n' : Node} (h : SameButTrivia n n') : n.bare = n'.bare := by
  induction h with
  | rel n n' hi => exact hi.bare_eq
  | refl n => rfl
  | symm n n' _ ih => exact ih.symm
  | trans n n' n'' _ _ ih ih' => exact ih.trans ih'

theorem field_bare (n : Node) : n.bare.label.field = n.label.field := by
  cases n
  rfl

theorem children_bare (n : Node) : n.bare.children = bareAmong n.children := by
  cases n
  rfl

theorem type_bare (n : Node) : n.bare.type = n.type := by
  cases n
  rfl

theorem textString_bare (source : List UInt8) (n : Node) :
    n.bare.textString source = n.textString source := by
  cases n
  rfl

theorem range_bare (source : List UInt8) (n : Node) : n.bare.range source = n.range source := by
  cases n
  rfl

theorem isCandidate_bare (n : Node) : n.bare.isCandidate = n.isCandidate := by
  cases n
  rfl

theorem not_isCandidate_of_isTrivia (n : Node) (h : n.isTrivia = true) : n.isCandidate = false := by
  rw [Node.isTrivia, Bool.and_eq_true, Bool.not_eq_true'] at h
  exact h.1

theorem field_of_isTrivia (n : Node) (h : n.isTrivia = true) : n.label.field = none := by
  rw [Node.isTrivia, Bool.and_eq_true, Option.isNone_iff_eq_none] at h
  exact h.2

theorem countP_bareAmong (cs : List Node) :
    (bareAmong cs).countP Node.isCandidate = cs.countP Node.isCandidate := by
  induction cs with
  | nil => rfl
  | cons c cs ih =>
    rw [bareAmong]
    split
    next ht => rw [ih, List.countP_cons, not_isCandidate_of_isTrivia c ht]; rfl
    next => rw [List.countP_cons, List.countP_cons, ih, isCandidate_bare]

/-- A field leads to the same child, since no piece of trivia is in one. -/
theorem child?_bare (n : Node) (field : String) :
    n.bare.child? field = (n.child? field).map Node.bare := by
  rw [Node.child?, Node.child?, children_bare]
  induction n.children with
  | nil => rfl
  | cons c cs ih =>
    rw [bareAmong, List.find?_cons]
    split
    next ht => rw [field_of_isTrivia c ht, ih]; rfl
    next =>
      rw [List.find?_cons, field_bare, ih]
      split <;> rfl

def Entry.bare (e : Entry) : Entry := { e with node := e.node.bare }

mutual

theorem entriesFrom_bare (index : Nat) (site : Site) (n : Node) :
    entriesFrom index site n.bare = (entriesFrom index site n).map Entry.bare := by
  match n with
  | ⟨label, children⟩ =>
    -- the children are told how many of them are seen, and trivia are not
    rw [Node.bare, entriesFrom, entriesFrom, List.map_cons, countP_bareAmong, childEntries_bare]
    rfl

theorem childEntries_bare (next parent depth position siblings : Nat) (cs : List Node) :
    childEntries next parent depth position siblings (bareAmong cs) =
      (childEntries next parent depth position siblings cs).map Entry.bare := by
  match cs with
  | [] => rfl
  | c :: cs =>
    rw [bareAmong]
    by_cases ht : c.isTrivia = true
    -- trivia take neither a number nor a place among the siblings
    · rw [if_pos ht, childEntries_bare, childEntries, not_isCandidate_of_isTrivia c ht]
      rfl
    · rw [if_neg ht, childEntries, childEntries, isCandidate_bare, field_bare]
      split
      · simp only [List.map_append, entriesFrom_bare, childEntries_bare, List.length_map]
      · exact childEntries_bare next parent depth position siblings cs

end

/-- The index passes trivia over: its entries have the same numbers and sites without them. -/
theorem index_bare (root : Node) : root.bare.index = root.index.map Entry.bare :=
  entriesFrom_bare 0 _ root

end TreeSelect.Tree

namespace TreeSelect.Matching
open TreeSelect.Tree Text.Utf8

theorem follow?_bare (n : Node) (part : String) :
    follow? n.bare part = (follow? n part).map Node.bare := by
  rw [follow?, follow?, child?_bare, type_bare]
  cases n.child? part with
  | some c => rfl
  | none =>
    cases ESTree.fieldOf part n.type with
    | none => rfl
    | some field => exact child?_bare n field

theorem pathText_bare (source : List UInt8) (n : Node) (path : List String) :
    pathText source n.bare path = pathText source n path := by
  induction path generalizing n with
  | nil => exact congrArg some (textString_bare source n)
  | cons part parts ih =>
    rw [pathText, pathText, follow?_bare, type_bare, textString_bare]
    cases follow? n part with
    | none => rfl
    | some c => exact ih c

/-- Selectors do not see whether a node has trivia below it. -/
theorem unseen_bare (source : List UInt8) : Unseen source Entry.bare where
  index _ := rfl
  site _ := rfl
  type e := type_bare e.node
  value e path := by
    rw [attributeValue, attributeValue]
    cases common? path with
    | none => exact pathText_bare source e.node path
    | some c =>
      obtain ⟨i, ⟨label, children⟩, site⟩ := e
      -- these attributes read the label, and it keeps all but the marks of faults
      cases c <;> rfl

theorem matchOf_bare (source : List UInt8) (withCode : Bool) (n : Node) :
    matchOf source withCode n.bare = matchOf source withCode n := by
  have hname : ((n.bare.child? "name").map fun c => c.textString source) =
      (n.child? "name").map fun c => c.textString source := by
    rw [child?_bare, Option.map_map]
    exact congrArg (Option.map · _) (funext fun c => textString_bare source c)
  rw [matchOf, matchOf, hname, type_bare, range_bare, textString_bare]

theorem query_bare (source : List UInt8) (root : Node) (l : Selector.SelectorList)
    (withCode : Bool) : query source root.bare l withCode = query source root l withCode := by
  rw [query, query, index_bare, (unseen_bare source).select_map, List.map_map]
  exact List.map_congr_left fun e _ => matchOf_bare source withCode e.node

/-- Trees that trivia alone tell apart have the same matches. -/
theorem query_eq_of_sameButTrivia (source : List UInt8) (root root' : Node)
    (l : Selector.SelectorList) (withCode : Bool) (h : SameButTrivia root root') :
    query source root l withCode = query source root' l withCode := by
  rw [← query_bare source root, h.bare_eq, query_bare]

/-- A list of two names with a remark between them, in which a name is seen as well. -/
def remarkedText : List Char := "[a, /*b*/ c]".toList

def remarkedLabel (type : String) (start stop : Nat) (named extra : Bool) : Label :=
  ⟨type, start, stop, pointAt (encode remarkedText) start, pointAt (encode remarkedText) stop, none,
    named, extra, false, false⟩

def nameAt (start : Nat) : Node :=
  ⟨remarkedLabel "identifier" start (start + 1) true false, []⟩

def signAt (sign : String) (start : Nat) : Node :=
  ⟨remarkedLabel sign start (start + 1) false false, []⟩

def remark : Node :=
  ⟨remarkedLabel "comment" 4 9 true true, [nameAt 6]⟩

def arrayOf (children : List Node) : Node :=
  ⟨remarkedLabel "array" 0 12 true false, children⟩

/-- A name right behind a name that is the second of the children. -/
def secondName : Selector.SelectorList :=
  ⟨[⟨⟨some "identifier", [], []⟩,
    [(.adjacent, ⟨some "identifier", [], [.place (.nthChild 2)]⟩)]⟩]⟩

theorem query_remarked :
    SameButTrivia (arrayOf [signAt "[" 0, nameAt 1, nameAt 10])
        (arrayOf [nameAt 1, remark, nameAt 10]) ∧
      query (encode remarkedText) (arrayOf [signAt "[" 0, nameAt 1, nameAt 10]) secondName true =
        [⟨"identifier", none, ⟨⟨1, 10⟩, ⟨1, 11⟩⟩, some "c"⟩] ∧
      query (encode remarkedText) (arrayOf [signAt "[" 0, nameAt 1, nameAt 10]) secondName true =
        query (encode remarkedText) (arrayOf [nameAt 1, remark, nameAt 10]) secondName true := by
  have hsign : Inserted (arrayOf [nameAt 1, nameAt 10])
      (arrayOf [signAt "[" 0, nameAt 1, nameAt 10]) :=
    .here _ _ [] [nameAt 1, nameAt 10] (signAt "[" 0) rfl rfl
  have hremark : Inserted (arrayOf [nameAt 1, nameAt 10])
      (arrayOf [nameAt 1, remark, nameAt 10]) :=
    .here _ _ [nameAt 1] [nameAt 10] remark rfl rfl
  have h : SameButTrivia (arrayOf [signAt "[" 0, nameAt 1, nameAt 10])
      (arrayOf [nameAt 1, remark, nameAt 10]) :=
    .trans _ _ _ (.symm _ _ (.rel _ _ hsign)) (.rel _ _ hremark)
  exact ⟨h, by decide +kernel, query_eq_of_sameButTrivia _ _ _ secondName true h⟩

end TreeSelect.Matching
