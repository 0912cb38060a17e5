import TreeSelect.Matching.Step
import TreeSelect.Tree.Node

namespace TreeSelect.Matching
open Selector TreeSelect.Tree

/-- The numbers of the entries above one, the nearest first, for at most `height` steps up. -/
def climb (entries : Array Entry) : Nat → Option Nat → List Nat
  | 0, _ => []
  | _, none => []
  | height + 1, some i => i :: climb entries height (entries[i]?.bind fun e => e.site.parent)

def ancestors (entries : Array Entry) (e : Entry) : List Nat :=
  climb entries e.site.depth e.site.parent

/-- The smallest place that an entry has below a parent. -/
def firstPosition? (earlier : List Entry) (parent : Option Nat) : Option Nat :=
  ((earlier.filter fun p => p.site.parent == parent).map fun p => p.site.position).min?

/-- The entries of the later step that stand to one of the earlier step as the combinator says. -/
def tied (entries : Array Entry) (c : Combinator) (earlier later : List Entry) : List Entry :=
  match c with
  | .child =>
    let parents := earlier.map fun p => some p.index
    later.filter fun e => parents.contains e.site.parent
  | .descendant =>
    let numbers := earlier.map fun p => p.index
    later.filter fun e => (ancestors entries e).any fun i => numbers.contains i
  | .adjacent =>
    let places := earlier.map fun p => (p.site.parent, p.site.position + 1)
    later.filter fun e => places.contains (e.site.parent, e.site.position)
  | .sibling =>
    later.filter fun e =>
      (firstPosition? earlier e.site.parent).any fun first => first < e.site.position

/-- Follows a query from its first step on: of the entries that the next step selects, those stay that
stand to one of the step before as the combinator says. -/
def selectQuery (source : List UInt8) (entries : List Entry) (q : Query) : List Entry :=
  q.rest.foldl
    (fun earlier (c, s) => tied entries.toArray c earlier (selectStep source entries s))
    (selectStep source entries q.first)

/-- The entries that some alternative selects, in the order of the index. -/
def select (source : List UInt8) (entries : List Entry) (selector : SelectorList) : List Entry :=
  match selector.queries with
  | [q] => selectQuery source entries q
  | qs =>
    let hits := qs.flatMap fun q => (selectQuery source entries q).map fun e => e.index
    entries.filter fun e => hits.contains e.index

/-- A match with the text of the field `name`, where it has one, and its code, where asked for. -/
structure Match where
  type : String
  name : Option String
  range : Range
  code : Option String
  deriving DecidableEq

def matchOf (source : List UInt8) (withCode : Bool) (n : Node) : Match where
  type := n.type
  name := (n.child? "name").map (·.textString source)
  range := n.range source
  code := if withCode then some (n.textString source) else none

/-- The matches of a selector in a tree, in document order. -/
def query (source : List UInt8) (root : Node) (selector : SelectorList) (withCode : Bool) :
    List Match :=
  (select source root.index selector).map fun e => matchOf source withCode e.node

end TreeSelect.Matching
