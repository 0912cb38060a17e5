import TreeSelect.Matching.Attribute
import TreeSelect.Selector.Basic

namespace TreeSelect.Matching
open Selector TreeSelect.Tree

/-- `part` occurs somewhere in `whole`. -/
def occursIn (part : List Char) : List Char → Bool
  | [] => part.isEmpty
  | c :: r => part.isPrefixOf (c :: r) || occursIn part r

def holds (left right : String) : Comparison → Bool
  | .equal => left == right
  | .different => left != right
  | .contains => occursIn right.toList left.toList
  | .startsWith => right.toList.isPrefixOf left.toList
  | .endsWith => right.toList.isSuffixOf left.toList

/-- Compares by the sign of a comparison, if it is one. The empty sign, which asks only that an
attribute is there, compares nothing. -/
def holdsBySign? (left sign right : String) : Option Bool :=
  match sign with
  | "" => some false
  | "=" => some (holds left right .equal)
  | "!=" => some (holds left right .different)
  | "~=" => some (holds left right .contains)
  | "^=" => some (holds left right .startsWith)
  | "$=" => some (holds left right .endsWith)
  | _ => none

def satisfies (source : List UInt8) (e : Entry) (p : Predicate) : Bool :=
  match attributeValue source e p.path, p.test with
  | none, _ => false
  | some _, none => true
  | some left, some (c, right) => holds left right c

/-- Places are among siblings, so the root has none. The number 0 counts as 1. -/
def standsAt (site : Site) (place : Place) : Bool :=
  site.parent.isSome &&
    match place with
    | .firstChild => site.position == 0
    | .lastChild => site.position + 1 == site.siblings
    | .nthChild k => site.position + 1 == max k 1
    | .nthLastChild k => site.position + max k 1 == site.siblings

def passes (site : Site) : Pseudo → Bool
  | .pick _ => true
  | .place place => standsAt site place

def ofType (types : Option (List String)) (n : Node) : Bool :=
  types.all fun ts => ts.contains n.type

def admits (source : List UInt8) (types : Option (List String)) (s : Step) (e : Entry) : Bool :=
  ofType types e.node && s.predicates.all (satisfies source e) && s.pseudos.all (passes e.site)

def pickFrom {α : Type} (xs : List α) : Pick → List α
  | .first => xs.take 1
  | .last => xs.drop (xs.length - 1)
  | .nth i => (xs.drop i).take 1

def picks (s : Step) : List Pick :=
  s.pseudos.filterMap fun
    | .pick p => some p
    | .place _ => none

/-- The entries that a step selects, in the order of the index. -/
def selectStep (source : List UInt8) (entries : List Entry) (s : Step) : List Entry :=
  let types := s.type.map ESTree.nodeTypes
  (picks s).foldl pickFrom (entries.filter (admits source types s))

end TreeSelect.Matching
