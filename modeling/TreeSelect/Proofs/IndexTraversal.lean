import TreeSelect.Proofs.TreeWays
import TreeSelect.Tree.Traversal

/-! The stack and the recursion make one index. The entries made so far, followed by those of the trees
that wait on the stack, are the same at every step, from the root alone to the empty stack. -/
namespace TreeSelect.Tree

theorem seenWithField_eq (n : Node) : n.seenWithField = n.seen.map fun c => (c, c.label.field) := by
  have hfield : ∀ c ∈ n.children.zipIdx.filter fun c => c.1.isCandidate,
      (c.1, n.fieldAt c.2) = (c.1, c.1.label.field) := by
    intro c hc
    have hplace : n.children[c.2]? = some c.1 :=
      List.mem_zipIdx_iff_getElem?.mp (List.mem_of_mem_filter hc)
    rw [Node.fieldAt, hplace]
    rfl
  calc n.seenWithField
      = (n.children.zipIdx.filter fun c => c.1.isCandidate).map fun c => (c.1, c.1.label.field) :=
        List.map_congr_left hfield
    _ = (n.seenWithField.map Prod.fst).map fun c => (c, c.label.field) := by
        rw [Node.seenWithField, List.map_map, List.map_map]
        rfl
    _ = n.seen.map fun c => (c, c.label.field) := by rw [fst_seenWithField, Node.seen]

/-- How children wait, the first of them in this position among those that are seen. -/
def waitingAt (parent depth position siblings : Nat) (cs : List Node) : List Waiting :=
  (cs.zipIdx position).map fun c => ⟨c.1, ⟨some parent, depth, c.1.label.field, c.2, siblings⟩⟩

theorem next_eq (w : Waiting) (index : Nat) :
    w.next index = waitingAt index (w.site.depth + 1) 0 w.node.seen.length w.node.seen := by
  rw [Waiting.next, waitingAt, seenWithField_eq, List.zipIdx_map, List.map_map, List.length_map]
  rfl

/-- The entries of the trees that wait, the one on top of the stack numbered first. -/
def waitingEntries (index : Nat) : List Waiting → List Entry
  | [] => []
  | w :: stack =>
    entriesFrom index w.site w.node ++
      waitingEntries (index + (entriesFrom index w.site w.node).length) stack

theorem waitingEntries_append (index : Nat) (ws stack : List Waiting) :
    waitingEntries index (ws ++ stack) =
      waitingEntries index ws ++ waitingEntries (index + (waitingEntries index ws).length) stack := by
  induction ws generalizing index with
  | nil => rfl
  | cons w ws ih =>
    rw [List.cons_append, waitingEntries, waitingEntries, ih, List.append_assoc, List.length_append,
      Nat.add_assoc]

/-- Children that wait side by side are numbered as the recursion numbers them. -/
theorem waitingEntries_children (next parent depth position siblings : Nat) (cs : List Node) :
    waitingEntries next
        (waitingAt parent depth position siblings (cs.filter Node.isCandidate)) =
      childEntries next parent depth position siblings cs := by
  induction cs generalizing next position with
  | nil => rfl
  | cons c cs ih =>
    rw [childEntries]
    by_cases hc : c.isCandidate = true
    · rw [List.filter_cons_of_pos hc, if_pos hc, waitingAt, List.zipIdx_cons, List.map_cons,
        waitingEntries]
      exact congrArg _ (ih _ (position + 1))
    · rw [List.filter_cons_of_neg hc, if_neg hc]
      exact ih next position

/-- One step: the node that is numbered is the first entry of its tree, and its children, put in its
place, are the trees of the other entries. -/
theorem waitingEntries_step (index : Nat) (w : Waiting) (stack : List Waiting) :
    waitingEntries index (w :: stack) =
      ⟨index, w.node, w.site⟩ :: waitingEntries (index + 1) (w.next index ++ stack) := by
  obtain ⟨⟨label, children⟩, site⟩ := w
  have hchildren : waitingEntries (index + 1) (Waiting.next ⟨⟨label, children⟩, site⟩ index) =
      childEntries (index + 1) index (site.depth + 1) 0 (children.countP Node.isCandidate)
        children := by
    rw [next_eq, List.countP_eq_length_filter]
    exact waitingEntries_children (index + 1) index (site.depth + 1) 0 _ children
  rw [waitingEntries, entriesFrom, waitingEntries_append, hchildren, List.cons_append,
    List.length_cons, Nat.add_assoc index 1, Nat.add_comm 1]

/-- The whole run: what has been numbered and what waits make up the entries in the end. -/
theorem numberAll_eq (entries : Array Entry) (stack : List Waiting) :
    (numberAll entries stack).toList = entries.toList ++ waitingEntries entries.size stack := by
  induction entries, stack using numberAll.induct with
  | case1 entries => rw [numberAll, waitingEntries, List.append_nil]
  | case2 entries w stack ih =>
    rw [List.foldr_cons_eq_append'] at ih
    rw [numberAll, List.foldr_cons_eq_append', ih, Array.toList_push, Array.size_push,
      List.append_assoc, List.singleton_append, ← waitingEntries_step]

theorem numbered_eq_index (root : Node) : root.numbered = root.index := by
  rw [Node.numbered, numberAll_eq, waitingEntries, waitingEntries, List.append_nil]
  rfl

end TreeSelect.Tree
