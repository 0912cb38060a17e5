import TreeSelect.Tree.Fault
import TreeSelect.Tree.Index

/-! The index of a tree, made with a stack of the nodes that wait for their number, so that no tree
is too deep for it. A node is put on the stack with its site, and it gets its number when it is
taken off. -/
namespace TreeSelect.Tree

/-- A node that waits for its number. -/
structure Waiting where
  node : Node
  site : Site

/-- The field that a child fills, told by its place among all children. -/
def Node.fieldAt (n : Node) (place : Nat) : Option String :=
  n.children[place]?.bind fun c => c.label.field

/-- The children that are seen, each with the field it fills. -/
def Node.seenWithField (n : Node) : List (Node × Option String) :=
  (n.children.zipIdx.filter fun c => c.1.isCandidate).map fun c => (c.1, n.fieldAt c.2)

/-- The children of a node that has got this number, which wait for theirs. -/
def Waiting.next (w : Waiting) (index : Nat) : List Waiting :=
  let seen := w.node.seenWithField
  seen.zipIdx.map fun c => ⟨c.1.1, ⟨some index, w.site.depth + 1, c.1.2, c.2, seen.length⟩⟩

theorem fst_seenWithField (n : Node) :
    n.seenWithField.map Prod.fst = n.children.filter Node.isCandidate := by
  have hfst : n.children.zipIdx.map Prod.fst = n.children := List.zipIdx_map_fst 0 n.children
  calc n.seenWithField.map Prod.fst
      = (n.children.zipIdx.filter fun c => c.1.isCandidate).map Prod.fst := by
        rw [Node.seenWithField, List.map_map]
        rfl
    _ = (n.children.zipIdx.map Prod.fst).filter Node.isCandidate := by
        rw [List.filter_map]
        rfl
    _ = n.children.filter Node.isCandidate := by rw [hfst]

theorem node_next (w : Waiting) (index : Nat) :
    (w.next index).map Waiting.node = w.node.children.filter Node.isCandidate := by
  rw [← fst_seenWithField, Waiting.next, List.map_map]
  calc w.node.seenWithField.zipIdx.map _
      = (w.node.seenWithField.zipIdx.map Prod.fst).map Prod.fst := by
        rw [List.map_map]
        rfl
    _ = w.node.seenWithField.map Prod.fst := by rw [List.zipIdx_map_fst]

/-- Gives the next number to the node on top of the stack, and puts its children there in its place. The
last child is put there first, so that the first one is numbered next. -/
def numberAll (entries : Array Entry) : List Waiting → Array Entry
  | [] => entries
  | w :: stack =>
    numberAll (entries.push ⟨entries.size, w.node, w.site⟩)
      ((w.next entries.size).foldr (fun child stack => child :: stack) stack)
termination_by stack => sizeAmong (stack.map Waiting.node)
decreasing_by
  -- the node itself is gone, and the children that wait are among all its children
  have hle := sizeAmong_filter_le Node.isCandidate w.node.children
  rw [List.foldr_cons_eq_append', List.map_append, node_next, sizeAmong_append, List.map_cons,
    sizeAmong, size_eq]
  omega

/-- The entries of a tree, numbered with a stack. -/
def Node.numbered (root : Node) : List Entry :=
  (numberAll #[] [⟨root, ⟨none, 0, none, 0, 1⟩⟩]).toList

end TreeSelect.Tree
