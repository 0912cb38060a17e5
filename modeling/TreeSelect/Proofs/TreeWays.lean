import Mathlib.Data.List.Forall2
import Mathlib.Data.List.Nodup
import TreeSelect.Tree.Index

/-! Ways through a tree. A way tells for each step down the place of a child among the children that
selectors see, so it names a node of the tree without the index, and it tells of two nodes how they
stand to each other. The entries of the index lie at the ways in document order. -/
namespace TreeSelect.Tree

/-- The children that selectors see. -/
def Node.seen (n : Node) : List Node :=
  n.children.filter Node.isCandidate

/-- The node at the end of a way. -/
def Node.at? (n : Node) : List Nat → Option Node
  | [] => some n
  | k :: way => n.seen[k]?.bind fun c => c.at? way

mutual

/-- The ways to a node, which lies at `way` itself, and to all that are seen below it. -/
def waysFrom (way : List Nat) : Node → List (List Nat)
  | ⟨_, children⟩ => way :: waysAmong way 0 children

/-- The ways to the children of the node at `way` and to all that are seen below them. -/
def waysAmong (way : List Nat) (position : Nat) : List Node → List (List Nat)
  | [] => []
  | c :: cs =>
    if c.isCandidate then waysFrom (way ++ [position]) c ++ waysAmong way (position + 1) cs
    else waysAmong way position cs

end

/-- The ways through a tree in document order. -/
def Node.ways (root : Node) : List (List Nat) :=
  waysFrom [] root

theorem at?_append (root n : Node) (way : List Nat) (k : Nat) (h : root.at? way = some n) :
    root.at? (way ++ [k]) = n.seen[k]? := by
  induction way generalizing root with
  | nil =>
    rw [Node.at?, Option.some.injEq] at h
    subst h
    rw [List.nil_append, Node.at?]
    cases root.seen[k]? <;> rfl
  | cons j way ih =>
    rw [Node.at?] at h
    obtain ⟨c, hc, hn⟩ := Option.bind_eq_some_iff.mp h
    rw [List.cons_append, Node.at?, hc]
    exact ih c hn

mutual

theorem prefix_of_mem_waysFrom (way w : List Nat) (n : Node) (h : w ∈ waysFrom way n) :
    way <+: w := by
  match n with
  | ⟨label, children⟩ =>
    rcases List.mem_cons.mp h with rfl | h
    · exact List.prefix_refl _
    · obtain ⟨k, _, hk⟩ := prefix_of_mem_waysAmong way w 0 children h
      exact (List.prefix_append way [k]).trans hk

theorem prefix_of_mem_waysAmong (way w : List Nat) (position : Nat) (cs : List Node)
    (h : w ∈ waysAmong way position cs) : ∃ k, position ≤ k ∧ way ++ [k] <+: w := by
  match cs with
  | [] => exact absurd h List.not_mem_nil
  | c :: cs =>
    rw [waysAmong] at h
    split at h
    · rcases List.mem_append.mp h with h | h
      · exact ⟨position, Nat.le_refl _, prefix_of_mem_waysFrom _ w c h⟩
      · obtain ⟨k, hk, hw⟩ := prefix_of_mem_waysAmong way w (position + 1) cs h
        exact ⟨k, by omega, hw⟩
    · exact prefix_of_mem_waysAmong way w position cs h

end

theorem eq_of_prefix_of_prefix (way w : List Nat) (j k : Nat) (hj : way ++ [j] <+: w)
    (hk : way ++ [k] <+: w) : j = k := by
  have he := List.prefix_of_prefix_length_le hj hk (by simp)
  have hl := he.eq_of_length (by simp)
  simpa using hl

mutual

theorem nodup_waysFrom (way : List Nat) (n : Node) : (waysFrom way n).Nodup := by
  match n with
  | ⟨label, children⟩ =>
    refine List.nodup_cons.mpr ⟨?_, nodup_waysAmong way 0 children⟩
    intro h
    obtain ⟨k, _, hk⟩ := prefix_of_mem_waysAmong way way 0 children h
    have hl := hk.length_le
    rw [List.length_append, List.length_singleton] at hl
    omega

theorem nodup_waysAmong (way : List Nat) (position : Nat) (cs : List Node) :
    (waysAmong way position cs).Nodup := by
  match cs with
  | [] => exact List.nodup_nil
  | c :: cs =>
    rw [waysAmong]
    split
    · refine List.nodup_append.mpr ⟨nodup_waysFrom _ c, nodup_waysAmong way _ cs, ?_⟩
      -- The way of a later child parts from that of this one at the parent.
      rintro w hw _ hw' rfl
      obtain ⟨k, hk, hp⟩ := prefix_of_mem_waysAmong way w (position + 1) cs hw'
      have he := eq_of_prefix_of_prefix way w _ _ (prefix_of_mem_waysFrom _ w c hw) hp
      omega
    · exact nodup_waysAmong way position cs

end

/-- No two nodes of a tree lie at one way. -/
theorem nodup_ways (root : Node) : root.ways.Nodup :=
  nodup_waysFrom [] root

mutual

theorem length_entriesFrom (index : Nat) (site : Site) (way : List Nat) (n : Node) :
    (entriesFrom index site n).length = (waysFrom way n).length := by
  match n with
  | ⟨label, children⟩ =>
    rw [entriesFrom, waysFrom, List.length_cons, List.length_cons,
      length_childEntries _ _ _ _ _ way]

theorem length_childEntries (next parent depth position siblings : Nat) (way : List Nat)
    (cs : List Node) :
    (childEntries next parent depth position siblings cs).length =
      (waysAmong way position cs).length := by
  match cs with
  | [] => rfl
  | c :: cs =>
    rw [childEntries, waysAmong]
    split
    · simp only [List.length_append]
      rw [length_entriesFrom _ _ (way ++ [position]), length_childEntries _ _ _ _ _ way]
    · exact length_childEntries next parent depth position siblings way cs

end

mutual

theorem index_entriesFrom (index : Nat) (site : Site) (n : Node) :
    (entriesFrom index site n).map (fun e => e.index) =
      List.range' index (entriesFrom index site n).length := by
  match n with
  | ⟨label, children⟩ =>
    rw [entriesFrom, List.map_cons, List.length_cons, List.range'_succ,
      index_childEntries]

theorem index_childEntries (next parent depth position siblings : Nat) (cs : List Node) :
    (childEntries next parent depth position siblings cs).map (fun e => e.index) =
      List.range' next (childEntries next parent depth position siblings cs).length := by
  match cs with
  | [] => rfl
  | c :: cs =>
    rw [childEntries]
    split
    · simp only [List.map_append, List.length_append]
      rw [index_entriesFrom, index_childEntries, List.range'_append_1]
    · exact index_childEntries next parent depth position siblings cs

end

/-- The entries are numbered from 0 on in the order in which they stand. -/
theorem index_of_getElem? (root : Node) (i : Nat) (e : Entry) (h : root.index[i]? = some e) :
    e.index = i := by
  have hm := congrArg (fun l => l[i]?) (index_entriesFrom 0 ⟨none, 0, none, 0, 1⟩ root)
  simp only [List.getElem?_map] at hm
  rw [Node.index] at h
  have hi := (List.getElem?_eq_some_iff.mp h).1
  rw [h, List.getElem?_range' hi] at hm
  simpa using hm

theorem getElem?_of_mem_index (root : Node) (e : Entry) (he : e ∈ root.index) :
    root.index[e.index]? = some e := by
  obtain ⟨i, hi⟩ := List.mem_iff_getElem?.mp he
  rw [index_of_getElem? root i e hi]
  exact hi

theorem pairwise_index (root : Node) : root.index.Pairwise fun a b => a.index < b.index := by
  have hm := index_entriesFrom 0 ⟨none, 0, none, 0, 1⟩ root
  have hp : (root.index.map fun e => e.index).Pairwise (· < ·) := by
    rw [Node.index, hm]
    exact List.pairwise_lt_range'
  exact List.pairwise_map.mp hp

/-- What the site of an entry says of the way to its node, where `numbers` tells which number goes
with which way. -/
structure Sited (numbers : Nat → List Nat → Prop) (root : Node) (way : List Nat) (e : Entry) :
    Prop where
  node : root.at? way = some e.node
  depth : e.site.depth = way.length
  top : way = [] → e.site.parent = none ∧ e.site.position = 0
  below : ∀ up k, way = up ++ [k] →
    e.site.position = k ∧ ∃ p, numbers p up ∧ e.site.parent = some p

mutual

theorem sited_entriesFrom (numbers : Nat → List Nat → Prop) (root : Node) (index : Nat)
    (site : Site) (way : List Nat) (n : Node) (h : Sited numbers root way ⟨index, n, site⟩)
    (hn : ∀ j w, (waysFrom way n)[j]? = some w → numbers (index + j) w) :
    List.Forall₂ (Sited numbers root) (waysFrom way n) (entriesFrom index site n) := by
  match n with
  | ⟨label, children⟩ =>
    have hd : site.depth = way.length := h.depth
    rw [entriesFrom]
    refine List.Forall₂.cons h ?_
    refine sited_childEntries numbers root _ index (site.depth + 1) 0 _ way children
      ⟨label, children⟩ h.node (by simp [Node.seen, Node.children]) (by rw [hd]) (hn 0 way rfl) ?_
    intro j w hw
    have hj := hn (j + 1) w (by simpa [waysFrom] using hw)
    rwa [Nat.add_assoc, Nat.add_comm 1]

theorem sited_childEntries (numbers : Nat → List Nat → Prop) (root : Node)
    (next parent depth position siblings : Nat) (way : List Nat) (cs : List Node) (n : Node)
    (ha : root.at? way = some n) (hs : n.seen.drop position = cs.filter Node.isCandidate)
    (hd : depth = way.length + 1) (hp : numbers parent way)
    (hn : ∀ j w, (waysAmong way position cs)[j]? = some w → numbers (next + j) w) :
    List.Forall₂ (Sited numbers root) (waysAmong way position cs)
      (childEntries next parent depth position siblings cs) := by
  match cs with
  | [] => exact List.Forall₂.nil
  | c :: cs =>
    rw [childEntries]
    rw [waysAmong] at hn ⊢
    by_cases hc : c.isCandidate = true
    · rw [if_pos hc] at hn ⊢
      rw [if_pos hc]
      rw [List.filter_cons_of_pos hc] at hs
      have hseen : n.seen[position]? = some c := by
        have hh := congrArg List.head? hs
        rwa [List.head?_drop, List.head?_cons] at hh
      refine List.rel_append ?_ ?_
      · refine sited_entriesFrom numbers root next _ (way ++ [position]) c ?_ ?_
        · refine ⟨?_, by simp [hd], by simp, ?_⟩
          · rw [at?_append root n way position ha]
            exact hseen
          · intro up k he
            obtain ⟨rfl, hk⟩ := List.append_inj' he rfl
            have hk' : position = k := by simpa using hk
            exact ⟨hk', parent, hp, rfl⟩
        · intro j w hw
          have hlt := (List.getElem?_eq_some_iff.mp hw).1
          exact hn j w (by rw [List.getElem?_append_left hlt]; exact hw)
      · refine sited_childEntries numbers root _ parent depth (position + 1) siblings way cs n ha ?_
          hd hp ?_
        · rw [← List.tail_drop, hs, List.tail_cons]
        · intro j w hw
          rw [Nat.add_assoc]
          refine hn _ w ?_
          rw [length_entriesFrom _ _ (way ++ [position]),
            List.getElem?_append_right (Nat.le_add_right _ _), Nat.add_sub_cancel_left]
          exact hw
    · rw [if_neg hc] at hn ⊢
      rw [if_neg hc]
      rw [List.filter_cons_of_neg hc] at hs
      exact sited_childEntries numbers root next parent depth position siblings way cs n ha hs hd
        hp hn

end

/-- An entry of the index of a tree lies at a way. -/
def LiesAt (root : Node) (e : Entry) (way : List Nat) : Prop :=
  root.ways[e.index]? = some way ∧ root.at? way = some e.node

theorem sited_index (root : Node) :
    List.Forall₂ (Sited (fun i w => root.ways[i]? = some w) root) root.ways root.index := by
  refine sited_entriesFrom _ root 0 _ [] root ⟨rfl, rfl, fun _ => ⟨rfl, rfl⟩, ?_⟩ ?_
  · intro up k h
    exact absurd h (by simp)
  · intro j w hw
    rw [Nat.zero_add]
    exact hw

/-- Every entry of an index lies at a way that its site agrees with. -/
theorem exists_way (root : Node) (e : Entry) (he : e ∈ root.index) :
    ∃ way, LiesAt root e way ∧ Sited (fun i w => root.ways[i]? = some w) root way e := by
  have hi := getElem?_of_mem_index root e he
  have hall := List.forall₂_iff_get.mp (sited_index root)
  obtain ⟨hlt, heq⟩ := List.getElem?_eq_some_iff.mp hi
  have hway : e.index < root.ways.length := hall.1 ▸ hlt
  have hsited := hall.2 e.index hway hlt
  rw [List.get_eq_getElem, List.get_eq_getElem, heq] at hsited
  exact ⟨_, ⟨List.getElem?_eq_getElem hway, hsited.node⟩, hsited⟩

mutual

/-- A node and all nodes below it in document order, those that selectors do not see among them. -/
def Node.nodes : Node → List Node
  | ⟨label, children⟩ => ⟨label, children⟩ :: nodesAmong children

def nodesAmong : List Node → List Node
  | [] => []
  | c :: cs => c.nodes ++ nodesAmong cs

end

mutual

theorem node_mem_of_mem_entriesFrom (index : Nat) (site : Site) (n : Node) (e : Entry)
    (he : e ∈ entriesFrom index site n) : e.node ∈ n.nodes := by
  match n with
  | ⟨label, children⟩ =>
    rw [Node.nodes]
    rcases List.mem_cons.mp he with rfl | he
    · exact List.mem_cons_self
    · exact List.mem_cons_of_mem _ (node_mem_of_mem_childEntries _ _ _ _ _ children e he)

theorem node_mem_of_mem_childEntries (next parent depth position siblings : Nat) (cs : List Node)
    (e : Entry) (he : e ∈ childEntries next parent depth position siblings cs) :
    e.node ∈ nodesAmong cs := by
  match cs with
  | [] => exact absurd he List.not_mem_nil
  | c :: cs =>
    rw [childEntries] at he
    rw [nodesAmong]
    split at he
    · rcases List.mem_append.mp he with he | he
      · exact List.mem_append_left _ (node_mem_of_mem_entriesFrom _ _ c e he)
      · exact List.mem_append_right _ (node_mem_of_mem_childEntries _ _ _ _ _ cs e he)
    · exact List.mem_append_right _ (node_mem_of_mem_childEntries _ _ _ _ _ cs e he)

end

/-- The index is made of nodes of the tree. -/
theorem node_mem_of_mem_index (root : Node) (e : Entry) (he : e ∈ root.index) :
    e.node ∈ root.nodes :=
  node_mem_of_mem_entriesFrom 0 _ root e he

end TreeSelect.Tree
