import TreeSelect.Proofs.QueryChain

namespace TreeSelect.Tree
open TreeSelect.Matching

section Order

theorem lt_append_right (way down : List Nat) (hne : down ≠ []) : way < way ++ down := by
  obtain ⟨k, down, rfl⟩ := List.exists_cons_of_ne_nil hne
  have hlt : way ++ [] < way ++ k :: down := List.append_left_lt (List.nil_lt_cons k down)
  rwa [List.append_nil] at hlt

theorem append_lt_append (way v w : List Nat) (j k : Nat) (hjk : j < k) :
    way ++ j :: v < way ++ k :: w := by
  apply List.append_left_lt
  exact List.cons_lt_cons_iff.mpr (Or.inl hjk)

mutual

theorem pairwise_waysFrom (way : List Nat) (n : Node) : (waysFrom way n).Pairwise (· < ·) := by
  match n with
  | ⟨label, children⟩ =>
    refine List.pairwise_cons.mpr ⟨?_, pairwise_waysAmong way 0 children⟩
    intro w hw
    obtain ⟨k, -, more, rfl⟩ := prefix_of_mem_waysAmong way w 0 children hw
    rw [List.append_assoc]
    exact lt_append_right way _ (List.cons_ne_nil k more)

theorem pairwise_waysAmong (way : List Nat) (position : Nat) (cs : List Node) :
    (waysAmong way position cs).Pairwise (· < ·) := by
  match cs with
  | [] => exact List.Pairwise.nil
  | c :: cs =>
    rw [waysAmong]
    split
    · refine List.pairwise_append.mpr
        ⟨pairwise_waysFrom _ c, pairwise_waysAmong way (position + 1) cs, ?_⟩
      -- the ways to a later child turn off later
      intro v hv w hw
      obtain ⟨more, rfl⟩ := prefix_of_mem_waysFrom _ v c hv
      obtain ⟨k, hk, more', rfl⟩ := prefix_of_mem_waysAmong way w (position + 1) cs hw
      rw [List.append_assoc, List.append_assoc]
      exact append_lt_append way more more' position k hk
    · exact pairwise_waysAmong way position cs

end

/-- The ways through a tree stand in the order of reading. -/
theorem pairwise_ways (root : Node) : root.ways.Pairwise (· < ·) :=
  pairwise_waysFrom [] root

/-- Entries are numbered in the order of their ways. -/
theorem index_lt_iff (root : Node) (a b : Entry) (v w : List Nat) (ha : LiesAt root a v)
    (hb : LiesAt root b w) : a.index < b.index ↔ v < w := by
  have hmono (i j : Nat) (v w : List Nat) (hi : root.ways[i]? = some v) (hj : root.ways[j]? = some w)
      (hlt : i < j) : v < w := by
    obtain ⟨hlti, heqi⟩ := List.getElem?_eq_some_iff.mp hi
    obtain ⟨hltj, heqj⟩ := List.getElem?_eq_some_iff.mp hj
    rw [← heqi, ← heqj]
    exact List.pairwise_iff_getElem.mp (pairwise_ways root) i j hlti hltj hlt
  constructor
  · exact hmono a.index b.index v w ha.1 hb.1
  · intro hlt
    by_contra hge
    rcases Nat.lt_or_eq_of_le (Nat.le_of_not_lt hge) with hgt | heq
    · exact List.lt_asymm hlt (hmono b.index a.index w v hb.1 ha.1 hgt)
    · have hvw : v = w := by
        have h := ha.1
        rw [← heq, hb.1] at h
        exact (Option.some.inj h).symm
      exact List.lt_irrefl v (hvw ▸ hlt)

end Order

section Blocks

theorem at?_append_eq (root : Node) (way down : List Nat) :
    root.at? (way ++ down) = (root.at? way).bind fun n => n.at? down := by
  induction way generalizing root with
  | nil => rfl
  | cons k way ih =>
    rw [List.cons_append, Node.at?, Node.at?, Option.bind_assoc]
    exact Option.bind_congr fun c _ => ih c

theorem mem_waysFrom_self (way : List Nat) (n : Node) : way ∈ waysFrom way n := by
  cases n
  exact List.mem_cons_self

theorem infix_waysAmong (way : List Nat) (position k : Nat) (cs : List Node) (c : Node)
    (hc : (cs.filter Node.isCandidate)[k]? = some c) :
    waysFrom (way ++ [position + k]) c <:+: waysAmong way position cs := by
  induction cs generalizing position k with
  | nil => exact absurd hc nofun
  | cons d cs ih =>
    rw [waysAmong]
    by_cases hd : d.isCandidate = true
    · rw [if_pos hd]
      rw [List.filter_cons_of_pos hd] at hc
      cases k with
      | zero =>
        obtain rfl : d = c := Option.some.inj hc
        exact (List.prefix_append _ _).isInfix
      | succ k =>
        have hrest := ih (position + 1) k hc
        rw [Nat.add_assoc, Nat.add_comm 1] at hrest
        exact hrest.trans (List.suffix_append _ _).isInfix
    · rw [if_neg hd]
      rw [List.filter_cons_of_neg hd] at hc
      exact ih position k hc

/-- The ways to a node and to all below it stand in one run. -/
theorem infix_waysFrom (way down : List Nat) (n m : Node) (h : n.at? down = some m) :
    waysFrom (way ++ down) m <:+: waysFrom way n := by
  induction down generalizing way n with
  | nil =>
    obtain rfl : n = m := Option.some.inj h
    simp only [List.append_nil, List.infix_rfl]
  | cons k down ih =>
    rw [Node.at?] at h
    obtain ⟨c, hc, hm⟩ := Option.bind_eq_some_iff.mp h
    have hdown : waysFrom (way ++ k :: down) m <:+: waysFrom (way ++ [k]) c := by
      have h := ih (way ++ [k]) c hm
      rwa [List.append_assoc] at h
    have hchild : waysFrom (way ++ [k]) c <:+: waysAmong way 0 n.children := by
      have h := infix_waysAmong way 0 k n.children c hc
      rwa [Nat.zero_add] at h
    have hself : waysAmong way 0 n.children <:+: waysFrom way n := by
      cases n
      exact (List.suffix_cons way _).isInfix
    exact hdown.trans (hchild.trans hself)

/-- At every way through a tree lies an entry of its index. -/
theorem exists_entry (root : Node) (way : List Nat) (h : way ∈ root.ways) :
    ∃ e ∈ root.index, LiesAt root e way := by
  obtain ⟨i, hi⟩ := List.mem_iff_getElem?.mp h
  have hlt : i < root.index.length := by
    rw [Node.index, length_entriesFrom _ _ []]
    exact (List.getElem?_eq_some_iff.mp hi).1
  obtain ⟨w, hw, -⟩ := exists_way root root.index[i] (List.getElem_mem hlt)
  have hindex : root.index[i].index = i :=
    index_of_getElem? root i _ (List.getElem?_eq_getElem hlt)
  have hsame : way = w := by
    have hway := hw.1
    rw [hindex, hi] at hway
    exact Option.some.inj hway
  subst hsame
  exact ⟨_, List.getElem_mem hlt, hw⟩

/-- The ways through a tree are those that end at a node. -/
theorem mem_ways_iff (root : Node) (way : List Nat) :
    way ∈ root.ways ↔ ∃ n, root.at? way = some n := by
  constructor
  · intro hway
    obtain ⟨e, -, he⟩ := exists_entry root way hway
    exact ⟨e.node, he.2⟩
  · rintro ⟨n, hn⟩
    exact (infix_waysFrom [] way root n hn).subset (mem_waysFrom_self way n)

theorem mem_waysFrom_iff_prefix (root p n : Node) (v w : List Nat) (hp : root.at? v = some p)
    (hn : root.at? w = some n) : w ∈ waysFrom v p ↔ v <+: w := by
  constructor
  · exact prefix_of_mem_waysFrom v w p
  · rintro ⟨down, rfl⟩
    rw [at?_append_eq, hp, Option.bind_some] at hn
    exact (infix_waysFrom v down p n hn).subset (mem_waysFrom_self _ n)

/-- The ways that go on from one way are numbered right behind it. -/
theorem mem_waysFrom_iff_index (root : Node) (p e : Entry) (v w : List Nat) (hp : LiesAt root p v)
    (he : LiesAt root e w) :
    w ∈ waysFrom v p.node ↔
      p.index ≤ e.index ∧ e.index < p.index + (waysFrom v p.node).length := by
  obtain ⟨before, after, hways⟩ := infix_waysFrom [] v root p.node hp.2
  rw [List.nil_append, List.append_assoc] at hways
  change before ++ (waysFrom v p.node ++ after) = root.ways at hways
  have hrun (j : Nat) (hj : j < (waysFrom v p.node).length) :
      root.ways[before.length + j]? = (waysFrom v p.node)[j]? := by
    rw [← hways, List.getElem?_append_right (Nat.le_add_right _ _), Nat.add_sub_cancel_left,
      List.getElem?_append_left hj]
  -- the run starts with the way of `p` itself
  have hstart : p.index = before.length := by
    obtain ⟨rest, hrest⟩ : ∃ rest, waysFrom v p.node = v :: rest := by
      cases p.node
      exact ⟨_, rfl⟩
    have hfirst := hrun 0 (by rw [hrest]; exact Nat.succ_pos _)
    rw [hrest] at hfirst
    exact index_eq_of_way root _ _ v hp.1 hfirst
  rw [hstart]
  constructor
  · intro hw
    obtain ⟨j, hj⟩ := List.mem_iff_getElem?.mp hw
    have hlt := (List.getElem?_eq_some_iff.mp hj).1
    have hindex := index_eq_of_way root _ _ w he.1 ((hrun j hlt).trans hj)
    omega
  · rintro ⟨hle, hlt⟩
    obtain ⟨j, hj⟩ := Nat.exists_eq_add_of_le hle
    have hw := he.1
    rw [hj, hrun j (by omega)] at hw
    exact List.mem_of_getElem? hw

end Blocks

end TreeSelect.Tree
