import Mathlib.Data.List.Sort
import TreeSelect.Proofs.IndexTraversal
import TreeSelect.Proofs.WayOrder

namespace TreeSelect.Tree
open TreeSelect.Matching

/-- An entry is that of a child. The field is told by the place among all children, the position by the
place among those that are seen. -/
def IsChild (p e : Entry) : Prop :=
  ∃ place, p.node.children[place]? = some e.node ∧ e.node.isCandidate = true ∧
    e.site = ⟨some p.index, p.site.depth + 1, p.node.fieldAt place,
      (p.node.children.take place).countP Node.isCandidate, p.node.seen.length⟩

/-- An entry is that of a child, or of a child of one that stands below, and so on. -/
inductive Below (entries : List Entry) (p : Entry) : Entry → Prop
  | child (e : Entry) (he : e ∈ entries) (h : e.site.parent = some p.index) : Below entries p e
  | deeper (m e : Entry) (hm : Below entries p m) (he : e ∈ entries)
      (h : e.site.parent = some m.index) : Below entries p e

/-- What it means that entries index a tree. The order of ways is that of reading: a way comes before
all that go on from it, and these come before the ways that turn off later. -/
structure InDocumentOrder (root : Node) (entries : List Entry) : Prop where
  nodes : ∃ ways : List (List Nat), ways.Pairwise (· < ·) ∧
    (∀ way, way ∈ ways ↔ ∃ n, root.at? way = some n) ∧
    List.Forall₂ (fun way e => root.at? way = some e.node) ways entries
  number : ∀ (i : Nat) (e : Entry), entries[i]? = some e → e.index = i
  top : entries[0]? = some ⟨0, root, ⟨none, 0, none, 0, 1⟩⟩
  parent : ∀ e ∈ entries, e.index ≠ 0 → ∃ p ∈ entries, p.index < e.index ∧ IsChild p e
  children : ∀ p ∈ entries,
    (entries.filter fun e => e.site.parent == some p.index).map (fun e => e.site.position) =
      List.range p.node.seen.length
  block : ∀ p ∈ entries, ∀ e ∈ entries,
    Below entries p e ↔ p.index < e.index ∧ e.index < p.index + p.node.numbered.length

section Parents

mutual

/-- Every entry below the first has its parent among the entries. -/
theorem isChild_of_mem_entriesFrom (index : Nat) (site : Site) (n : Node) (e : Entry)
    (he : e ∈ entriesFrom index site n) :
    e = ⟨index, n, site⟩ ∨ ∃ p ∈ entriesFrom index site n, IsChild p e := by
  match n with
  | ⟨label, children⟩ =>
    rw [entriesFrom, List.mem_cons] at he
    rw [entriesFrom]
    rcases he with rfl | he
    · exact Or.inl rfl
    · right
      have hlength : children.countP Node.isCandidate = (Node.mk label children).seen.length :=
        List.countP_eq_length_filter
      rw [hlength] at he ⊢
      have hchild := isChild_of_mem_childEntries ⟨index, ⟨label, children⟩, site⟩ (index + 1) []
        children rfl e he
      rcases hchild with hchild | ⟨p, hp, hchild⟩
      · exact ⟨_, List.mem_cons_self, hchild⟩
      · exact ⟨p, List.mem_cons_of_mem _ hp, hchild⟩

/-- The same for the entries below `p`, of whose children those in `earlier` are told already. -/
theorem isChild_of_mem_childEntries (p : Entry) (next : Nat) (earlier cs : List Node)
    (hcs : p.node.children = earlier ++ cs) (e : Entry)
    (he : e ∈ childEntries next p.index (p.site.depth + 1) (earlier.countP Node.isCandidate)
      p.node.seen.length cs) :
    IsChild p e ∨ ∃ q ∈ childEntries next p.index (p.site.depth + 1)
      (earlier.countP Node.isCandidate) p.node.seen.length cs, IsChild q e := by
  match cs with
  | [] => exact absurd he List.not_mem_nil
  | c :: cs =>
    have hmore : p.node.children = (earlier ++ [c]) ++ cs := by
      rw [hcs, List.append_assoc, List.singleton_append]
    rw [childEntries] at he ⊢
    by_cases hc : c.isCandidate = true
    · rw [if_pos hc] at he ⊢
      dsimp only at he ⊢
      have hcount : (earlier ++ [c]).countP Node.isCandidate =
          earlier.countP Node.isCandidate + 1 := by
        simp [List.countP_append, hc]
      rcases List.mem_append.mp he with he | he
      · rcases isChild_of_mem_entriesFrom _ _ c e he with rfl | ⟨q, hq, hchild⟩
        · -- the child itself, which stands behind all that are told already
          left
          have hplace : p.node.children[earlier.length]? = some c := by
            rw [hcs, List.getElem?_append_right (Nat.le_refl _), Nat.sub_self]
            rfl
          have hbefore : p.node.children.take earlier.length = earlier := by
            rw [hcs, List.take_left]
          refine ⟨earlier.length, hplace, hc, ?_⟩
          rw [Node.fieldAt, hplace, hbefore]
          rfl
        · exact Or.inr ⟨q, List.mem_append_left _ hq, hchild⟩
      · rw [← hcount] at he ⊢
        rcases isChild_of_mem_childEntries p _ (earlier ++ [c]) cs hmore e he with
          hchild | ⟨q, hq, hchild⟩
        · exact Or.inl hchild
        · exact Or.inr ⟨q, List.mem_append_right _ hq, hchild⟩
    · rw [if_neg hc] at he ⊢
      have hcount : (earlier ++ [c]).countP Node.isCandidate = earlier.countP Node.isCandidate := by
        simp [List.countP_append, hc]
      rw [← hcount] at he ⊢
      exact isChild_of_mem_childEntries p next (earlier ++ [c]) cs hmore e he

end

theorem isChild_of_mem_index (root : Node) (e : Entry) (he : e ∈ root.index) :
    e = ⟨0, root, ⟨none, 0, none, 0, 1⟩⟩ ∨ ∃ p ∈ root.index, IsChild p e :=
  isChild_of_mem_entriesFrom 0 ⟨none, 0, none, 0, 1⟩ root e he

theorem IsChild.parent_eq (p e : Entry) (h : IsChild p e) : e.site.parent = some p.index := by
  obtain ⟨place, -, -, hsite⟩ := h
  rw [hsite]

end Parents

section Descendants

theorem parent_eq_iff_of_ways (root : Node) (p e : Entry) (v w : List Nat) (hp : LiesAt root p v)
    (he : e ∈ root.index) (hw : LiesAt root e w) :
    e.site.parent = some p.index ↔ ∃ k, w = v ++ [k] := by
  rw [parent_eq_some_iff root e he]
  constructor
  · rintro ⟨up, k, hup, hew⟩
    obtain rfl : up = v := Option.some.inj (hup.symm.trans hp.1)
    exact ⟨k, way_unique root e _ _ hw hew⟩
  · rintro ⟨k, rfl⟩
    exact ⟨v, k, hp.1, hw⟩

theorem Below.mem (entries : List Entry) (p e : Entry) (h : Below entries p e) : e ∈ entries := by
  cases h with
  | child _ he _ => exact he
  | deeper _ _ _ he _ => exact he

/-- The way to what stands below an entry goes on from the way to it. -/
theorem exists_down_of_below (root : Node) (p e : Entry) (v w : List Nat) (hp : LiesAt root p v)
    (h : Below root.index p e) (he : LiesAt root e w) : ∃ down, down ≠ [] ∧ w = v ++ down := by
  induction h generalizing w with
  | child e hmem hparent =>
    obtain ⟨k, hk⟩ := (parent_eq_iff_of_ways root p e v w hp hmem he).mp hparent
    exact ⟨[k], List.cons_ne_nil k [], hk⟩
  | deeper m e hm hmem hparent ih =>
    obtain ⟨u, hu, -⟩ := exists_way root m hm.mem
    obtain ⟨k, rfl⟩ := (parent_eq_iff_of_ways root m e u w hu hmem he).mp hparent
    obtain ⟨down, -, rfl⟩ := ih u hu
    refine ⟨down ++ [k], List.concat_ne_nil k down, ?_⟩
    exact List.append_assoc v down [k]

/-- What lies further down on a way stands below the entry that lies there. -/
theorem below_of_down (root : Node) (p e : Entry) (v down : List Nat) (hp : LiesAt root p v)
    (hne : down ≠ []) (hmem : e ∈ root.index) (he : LiesAt root e (v ++ down)) :
    Below root.index p e := by
  induction down using List.reverseRecOn generalizing e with
  | nil => exact absurd rfl hne
  | append_singleton down k ih =>
    rw [← List.append_assoc] at he
    by_cases hdown : down = []
    · subst hdown
      rw [List.append_nil] at he
      apply Below.child e hmem
      exact (parent_eq_iff_of_ways root p e v _ hp hmem he).mpr ⟨k, rfl⟩
    · -- the entry one step up the way stands between
      have hnode := he.2
      rw [at?_append_eq] at hnode
      obtain ⟨n, hn, -⟩ := Option.bind_eq_some_iff.mp hnode
      obtain ⟨m, hm, hmw⟩ := exists_entry root (v ++ down) ((mem_ways_iff root _).mpr ⟨n, hn⟩)
      apply Below.deeper m e (ih m hdown hm hmw) hmem
      exact (parent_eq_iff_of_ways root m e _ _ hmw hmem he).mpr ⟨k, rfl⟩

theorem below_iff_index (root : Node) (p e : Entry) (hp : p ∈ root.index) (he : e ∈ root.index) :
    Below root.index p e ↔ p.index < e.index ∧ e.index < p.index + p.node.index.length := by
  obtain ⟨v, hv, -⟩ := exists_way root p hp
  obtain ⟨w, hw, -⟩ := exists_way root e he
  have hsize : p.node.index.length = (waysFrom v p.node).length := length_entriesFrom 0 _ v p.node
  have hblock : v <+: w ↔ p.index ≤ e.index ∧ e.index < p.index + p.node.index.length := by
    rw [hsize, ← mem_waysFrom_iff_index root p e v w hv hw,
      mem_waysFrom_iff_prefix root p.node e.node v w hv.2 hw.2]
  constructor
  · intro hbelow
    obtain ⟨down, hne, rfl⟩ := exists_down_of_below root p e v w hv hbelow hw
    have hlt := (index_lt_iff root p e v _ hv hw).mpr (lt_append_right v down hne)
    exact ⟨hlt, (hblock.mp (List.prefix_append v down)).2⟩
  · rintro ⟨hlt, hend⟩
    obtain ⟨down, rfl⟩ := hblock.mpr ⟨Nat.le_of_lt hlt, hend⟩
    refine below_of_down root p e v down hv ?_ he hw
    rintro rfl
    rw [List.append_nil] at hw
    exact absurd (index_eq_of_way root _ _ v hv.1 hw.1) (Nat.ne_of_lt hlt)

end Descendants

section Children

/-- Of two children the one with the smaller number is the one in front. -/
theorem position_lt_of_index_lt (root : Node) (p a b : Entry) (ha : a ∈ root.index)
    (hb : b ∈ root.index) (hpa : a.site.parent = some p.index)
    (hpb : b.site.parent = some p.index) (hlt : a.index < b.index) :
    a.site.position < b.site.position := by
  obtain ⟨up, haw, hbw⟩ := (siblings_iff root a b ha hb _ _).mpr
    ⟨by rw [hpa]; exact nofun, hpa.trans hpb.symm, rfl, rfl⟩
  by_contra hge
  rcases Nat.lt_or_eq_of_le (Nat.le_of_not_lt hge) with hgt | heq
  · have hback := (index_lt_iff root b a _ _ hbw haw).mpr (append_lt_append up [] [] _ _ hgt)
    omega
  · rw [heq] at hbw
    exact absurd (index_eq_of_way root _ _ _ haw.1 hbw.1) (Nat.ne_of_lt hlt)

/-- The positions among the children of a node are those of the children that are seen. -/
theorem exists_child_iff (root : Node) (p : Entry) (hp : p ∈ root.index) (k : Nat) :
    (∃ e ∈ root.index, e.site.parent = some p.index ∧ e.site.position = k) ↔
      k < p.node.seen.length := by
  obtain ⟨v, hv, -⟩ := exists_way root p hp
  have hstep : root.at? (v ++ [k]) = p.node.seen[k]? := at?_append root p.node v k hv.2
  constructor
  · rintro ⟨e, he, hparent, rfl⟩
    obtain ⟨w, hw, -⟩ := exists_way root e he
    obtain ⟨j, rfl⟩ := (parent_eq_iff_of_ways root p e v w hv he hw).mp hparent
    have hnode := hw.2
    rw [← position_of_way root e he v j hw, hstep] at hnode
    exact (List.getElem?_eq_some_iff.mp hnode).1
  · intro hk
    rw [List.getElem?_eq_getElem hk] at hstep
    obtain ⟨e, he, hw⟩ := exists_entry root (v ++ [k]) ((mem_ways_iff root _).mpr ⟨_, hstep⟩)
    refine ⟨e, he, ?_, position_of_way root e he v k hw⟩
    exact (parent_eq_iff_of_ways root p e v _ hv he hw).mpr ⟨k, rfl⟩

theorem positions_of_children (root : Node) (p : Entry) (hp : p ∈ root.index) :
    (root.index.filter fun e => e.site.parent == some p.index).map (fun e => e.site.position) =
      List.range p.node.seen.length := by
  have hordered : ((root.index.filter fun e => e.site.parent == some p.index).map
      fun e => e.site.position).Pairwise (· < ·) := by
    refine List.pairwise_map.mpr ?_
    refine ((pairwise_index root).sublist List.filter_sublist).imp_of_mem ?_
    intro a b ha hb hlt
    obtain ⟨ha, hpa⟩ := List.mem_filter.mp ha
    obtain ⟨hb, hpb⟩ := List.mem_filter.mp hb
    exact position_lt_of_index_lt root p a b ha hb (eq_of_beq hpa) (eq_of_beq hpb) hlt
  refine hordered.eq_of_mem_iff List.pairwise_lt_range ?_
  intro k
  rw [List.mem_range, ← exists_child_iff root p hp k, List.mem_map]
  simp only [List.mem_filter, beq_iff_eq, and_assoc]

end Children

/-- The stack leaves every tree indexed in document order, as the recursion does. -/
theorem numbered_inDocumentOrder (root : Node) :
    root.numbered = root.index ∧ InDocumentOrder root root.numbered := by
  have hindex := numbered_eq_index root
  refine ⟨hindex, ?_⟩
  rw [hindex]
  refine ⟨?nodes, index_of_getElem? root, ?top, ?parent, positions_of_children root, ?block⟩
  case nodes =>
    refine ⟨root.ways, pairwise_ways root, mem_ways_iff root, ?_⟩
    exact (sited_index root).imp fun _ _ h => h.node
  case top =>
    cases root
    rfl
  case parent =>
    intro e he hne
    rcases isChild_of_mem_index root e he with rfl | ⟨p, hp, hchild⟩
    · exact absurd rfl hne
    · obtain ⟨v, hv, -⟩ := exists_way root p hp
      obtain ⟨w, hw, -⟩ := exists_way root e he
      obtain ⟨k, rfl⟩ := (parent_eq_iff_of_ways root p e v w hv he hw).mp hchild.parent_eq
      -- the way to a child goes on from that to its parent
      have hlt := (index_lt_iff root p e v _ hv hw).mpr
        (lt_append_right v [k] (List.cons_ne_nil k []))
      exact ⟨p, hp, hlt, hchild⟩
  case block =>
    intro p hp e he
    rw [numbered_eq_index]
    exact below_iff_index root p e hp he

end TreeSelect.Tree
