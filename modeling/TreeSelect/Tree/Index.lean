import TreeSelect.Tree.Node

namespace TreeSelect.Tree

/-- Where a node stands: its parent's number, how deep it lies, the field it fills, and its place
among the siblings that are seen, counted from 0. -/
structure Site where
  parent : Option Nat
  depth : Nat
  field : Option String
  position : Nat
  siblings : Nat
  deriving DecidableEq

structure Entry where
  index : Nat
  node : Node
  site : Site

mutual

/-- The entries of a node and of all below it, numbered from `index` on. -/
def entriesFrom (index : Nat) (site : Site) : Node → List Entry
  | ⟨label, children⟩ =>
    ⟨index, ⟨label, children⟩, site⟩ ::
      childEntries (index + 1) index (site.depth + 1) 0 (children.countP Node.isCandidate) children

/-- The entries of the children that are seen, numbered from `next` on. -/
def childEntries (next parent depth position siblings : Nat) : List Node → List Entry
  | [] => []
  | c :: cs =>
    if c.isCandidate then
      let block := entriesFrom next ⟨some parent, depth, c.label.field, position, siblings⟩ c
      block ++ childEntries (next + block.length) parent depth (position + 1) siblings cs
    else childEntries next parent depth position siblings cs

end

/-- The index of the tree below a root, which has no parent and no field. -/
def Node.index (root : Node) : List Entry :=
  entriesFrom 0 ⟨none, 0, none, 0, 1⟩ root

end TreeSelect.Tree
