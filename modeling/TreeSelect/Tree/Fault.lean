import TreeSelect.Tree.Node

namespace TreeSelect.Tree

/-- An error node stands for text that could not be placed, a missing one for text that was made up. -/
def Node.isFault (n : Node) : Bool :=
  n.type == "ERROR" || n.label.missing

/-- Whether a search for faults has to look at a child. -/
def Node.isSuspect (n : Node) : Bool :=
  n.label.hasError || n.label.missing

mutual

/-- How many nodes a tree has. -/
def Node.size : Node → Nat
  | ⟨_, children⟩ => sizeAmong children + 1

def sizeAmong : List Node → Nat
  | [] => 0
  | c :: cs => c.size + sizeAmong cs

end

theorem size_eq (n : Node) : n.size = sizeAmong n.children + 1 := by
  cases n
  rw [Node.size, Node.children]

theorem sizeAmong_append (cs ds : List Node) : sizeAmong (cs ++ ds) = sizeAmong cs + sizeAmong ds := by
  induction cs with
  | nil => rw [List.nil_append, sizeAmong, Nat.zero_add]
  | cons c cs ih => rw [List.cons_append, sizeAmong, sizeAmong, ih, Nat.add_assoc]

theorem sizeAmong_filter_le (p : Node → Bool) (cs : List Node) :
    sizeAmong (cs.filter p) ≤ sizeAmong cs := by
  induction cs with
  | nil => exact Nat.le_refl _
  | cons c cs ih =>
    rw [List.filter_cons, sizeAmong]
    split
    · rw [sizeAmong]
      exact Nat.add_le_add_left ih c.size
    · exact Nat.le_trans ih (Nat.le_add_left _ _)

/-- The first fault in the trees that wait to be searched. The children of a node that is no fault
come before those that wait already; subtrees without an error are passed over. -/
def faultAmong : List Node → Option Node
  | [] => none
  | n :: waiting =>
    if n.isFault then some n else faultAmong (n.children.filter Node.isSuspect ++ waiting)
termination_by waiting => sizeAmong waiting
decreasing_by
  have hle := sizeAmong_filter_le Node.isSuspect n.children
  rw [sizeAmong_append, sizeAmong, size_eq]
  omega

/-- The first fault of a tree in document order. -/
def Node.firstFault (root : Node) : Option Node :=
  if root.label.hasError then faultAmong [root] else none

/-- How a fault is told. -/
def Node.faultMessage (source : List UInt8) (n : Node) : String :=
  let p := n.startPosition source
  if n.label.missing then s!"Missing \"{n.type}\" ({p.line}:{p.column})"
  else s!"Unexpected token ({p.line}:{p.column})"

end TreeSelect.Tree
