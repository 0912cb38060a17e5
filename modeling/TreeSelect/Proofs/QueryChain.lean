import Mathlib.Data.List.Induction
import TreeSelect.Matching.Chain
import TreeSelect.Proofs.TreeWays

/-! What a query selects, told by chains of nodes in the tree. Each step keeps those of its entries
that stand to some entry kept before as the combinator says; over all steps these are the ends of the
chains that start at the first step, in the order of the index. -/
namespace TreeSelect.Matching
open Selector TreeSelect.Tree

/-- How the way to a node stands to the way to the node of the step before it. -/
def Relates : Combinator → List Nat → List Nat → Prop
  | .descendant, earlier, way => ∃ down, down ≠ [] ∧ way = earlier ++ down
  | .child, earlier, way => ∃ k, way = earlier ++ [k]
  | .adjacent, earlier, way => ∃ up k, earlier = up ++ [k] ∧ way = up ++ [k + 1]
  | .sibling, earlier, way => ∃ up j k, j < k ∧ earlier = up ++ [j] ∧ way = up ++ [k]

/-- The node of an entry stands in the tree to the node of an earlier one as a combinator says. -/
def Tied (root : Node) (c : Combinator) (p e : Entry) : Prop :=
  ∃ earlier way, LiesAt root p earlier ∧ LiesAt root e way ∧ Relates c earlier way

/-- Chains from an entry through entries of the steps that follow, each tied to the one before. -/
inductive Chain (source : List UInt8) (root : Node) : Entry → List (Combinator × Step) → Entry → Prop
  | done (e : Entry) : Chain source root e [] e
  | next (p m e : Entry) (c : Combinator) (s : Step) (rest : List (Combinator × Step)) :
      Tied root c p m → m ∈ selectStep source root.index s → Chain source root m rest e →
      Chain source root p ((c, s) :: rest) e

theorem pickFrom_sublist {α : Type} (xs : List α) (p : Pick) : (pickFrom xs p).Sublist xs := by
  cases p with
  | first => exact List.take_sublist 1 xs
  | last => exact List.drop_sublist _ xs
  | nth i => exact (List.take_sublist 1 _).trans (List.drop_sublist i xs)

theorem foldl_pickFrom_sublist {α : Type} (ps : List Pick) (xs : List α) :
    (ps.foldl pickFrom xs).Sublist xs := by
  induction ps generalizing xs with
  | nil => exact List.Sublist.refl xs
  | cons p ps ih => exact (ih (pickFrom xs p)).trans (pickFrom_sublist xs p)

theorem selectStep_sublist (source : List UInt8) (entries : List Entry) (s : Step) :
    (selectStep source entries s).Sublist entries :=
  (foldl_pickFrom_sublist _ _).trans List.filter_sublist

theorem tied_sublist (entries : Array Entry) (c : Combinator) (earlier later : List Entry) :
    (tied entries c earlier later).Sublist later := by
  cases c <;> exact List.filter_sublist

theorem way_unique (root : Node) (e : Entry) (v w : List Nat) (hv : LiesAt root e v)
    (hw : LiesAt root e w) : v = w :=
  Option.some.inj (hv.1.symm.trans hw.1)

/-- Entries at one way have one number. -/
theorem index_eq_of_way (root : Node) (i j : Nat) (w : List Nat) (hi : root.ways[i]? = some w)
    (hj : root.ways[j]? = some w) : i = j := by
  obtain ⟨hlt, hi⟩ := List.getElem?_eq_some_iff.mp hi
  obtain ⟨hlt', hj⟩ := List.getElem?_eq_some_iff.mp hj
  exact (nodup_ways root).getElem_inj_iff.mp (hi.trans hj.symm)

theorem parent_eq_some_iff (root : Node) (e : Entry) (he : e ∈ root.index) (i : Nat) :
    e.site.parent = some i ↔ ∃ up k, root.ways[i]? = some up ∧ LiesAt root e (up ++ [k]) := by
  obtain ⟨way, hw, hs⟩ := exists_way root e he
  rcases List.eq_nil_or_concat' way with rfl | ⟨up, k, rfl⟩
  · rw [(hs.top rfl).1]
    constructor
    · exact nofun
    · rintro ⟨up, k, _, hk⟩
      exact absurd (way_unique root e _ _ hw hk) (by simp)
  · obtain ⟨_, p, hp, hparent⟩ := hs.below up k rfl
    rw [hparent, Option.some.injEq]
    constructor
    · rintro rfl
      exact ⟨up, k, hp, hw⟩
    · rintro ⟨up', k', hup, hk⟩
      obtain ⟨rfl, _⟩ := List.append_inj' (way_unique root e _ _ hw hk) rfl
      exact index_eq_of_way root p i up hp hup

theorem position_of_parent_none (root : Node) (e : Entry) (he : e ∈ root.index)
    (h : e.site.parent = none) : e.site.position = 0 := by
  obtain ⟨way, _, hs⟩ := exists_way root e he
  rcases List.eq_nil_or_concat' way with rfl | ⟨up, k, rfl⟩
  · exact (hs.top rfl).2
  · obtain ⟨_, p, _, hparent⟩ := hs.below up k rfl
    exact absurd (h.symm.trans hparent) nofun

theorem position_of_way (root : Node) (e : Entry) (he : e ∈ root.index) (up : List Nat) (k : Nat)
    (h : LiesAt root e (up ++ [k])) : e.site.position = k := by
  obtain ⟨way, hw, hs⟩ := exists_way root e he
  exact (hs.below up k (way_unique root e _ _ hw h)).1

/-- Entries with one parent lie at ways that part at their last step. -/
theorem siblings_iff (root : Node) (p e : Entry) (hp : p ∈ root.index) (he : e ∈ root.index)
    (j k : Nat) :
    (∃ up, LiesAt root p (up ++ [j]) ∧ LiesAt root e (up ++ [k])) ↔
      p.site.parent ≠ none ∧ p.site.parent = e.site.parent ∧
        p.site.position = j ∧ e.site.position = k := by
  constructor
  · rintro ⟨up, hpw, hew⟩
    obtain ⟨way, hw, hs⟩ := exists_way root p hp
    obtain ⟨_, i, hi, hparent⟩ := hs.below up j (way_unique root p _ _ hw hpw)
    have heparent := (parent_eq_some_iff root e he i).mpr ⟨up, k, hi, hew⟩
    exact ⟨by simp [hparent], hparent.trans heparent.symm, position_of_way root p hp up j hpw,
      position_of_way root e he up k hew⟩
  · rintro ⟨hne, hsame, rfl, rfl⟩
    obtain ⟨i, hi⟩ := Option.ne_none_iff_exists'.mp hne
    obtain ⟨up, j, hup, hpw⟩ := (parent_eq_some_iff root p hp i).mp hi
    obtain ⟨up', k, hup', hew⟩ := (parent_eq_some_iff root e he i).mp (hsame ▸ hi)
    obtain rfl : up = up' := Option.some.inj (hup.symm.trans hup')
    rw [position_of_way root p hp up j hpw, position_of_way root e he up k hew]
    exact ⟨up, hpw, hew⟩

theorem tied_child_iff (root : Node) (p e : Entry) (hp : p ∈ root.index) (he : e ∈ root.index) :
    Tied root .child p e ↔ e.site.parent = some p.index := by
  rw [parent_eq_some_iff root e he]
  constructor
  · rintro ⟨up, _, hpw, hew, k, rfl⟩
    exact ⟨up, k, hpw.1, hew⟩
  · rintro ⟨up, k, hup, hew⟩
    obtain ⟨way, hpw, _⟩ := exists_way root p hp
    obtain rfl : up = way := Option.some.inj (hup.symm.trans hpw.1)
    exact ⟨up, _, hpw, hew, k, rfl⟩

theorem tied_adjacent_iff (root : Node) (p e : Entry) (hp : p ∈ root.index)
    (he : e ∈ root.index) :
    Tied root .adjacent p e ↔
      p.site.parent = e.site.parent ∧ p.site.position + 1 = e.site.position := by
  constructor
  · rintro ⟨_, _, hpw, hew, up, k, rfl, rfl⟩
    obtain ⟨_, hsame, hj, hk⟩ := (siblings_iff root p e hp he k (k + 1)).mp ⟨up, hpw, hew⟩
    exact ⟨hsame, by omega⟩
  · rintro ⟨hsame, hnext⟩
    -- The root has no sibling: its place is 0, and so is that of no entry after it.
    have hne : p.site.parent ≠ none := by
      intro hnone
      have hz := position_of_parent_none root e he (hsame ▸ hnone)
      omega
    obtain ⟨up, hpw, hew⟩ := (siblings_iff root p e hp he _ _).mpr ⟨hne, hsame, rfl, rfl⟩
    rw [← hnext] at hew
    exact ⟨_, _, hpw, hew, up, _, rfl, rfl⟩

theorem tied_sibling_iff (root : Node) (p e : Entry) (hp : p ∈ root.index)
    (he : e ∈ root.index) :
    Tied root .sibling p e ↔
      p.site.parent = e.site.parent ∧ p.site.position < e.site.position := by
  constructor
  · rintro ⟨_, _, hpw, hew, up, j, k, hjk, rfl, rfl⟩
    obtain ⟨_, hsame, hj, hk⟩ := (siblings_iff root p e hp he j k).mp ⟨up, hpw, hew⟩
    exact ⟨hsame, by omega⟩
  · rintro ⟨hsame, hlt⟩
    have hne : p.site.parent ≠ none := by
      intro hnone
      have hz := position_of_parent_none root e he (hsame ▸ hnone)
      omega
    obtain ⟨up, hpw, hew⟩ := (siblings_iff root p e hp he _ _).mpr ⟨hne, hsame, rfl, rfl⟩
    exact ⟨_, _, hpw, hew, up, _, _, hlt, rfl, rfl⟩

/-- Climbing from a number meets the numbers of all beginnings of its way. -/
theorem mem_climb_iff (root : Node) (up : List Nat) (p i : Nat) (hp : root.ways[p]? = some up) :
    i ∈ climb root.index.toArray (up.length + 1) (some p) ↔
      ∃ v, v <+: up ∧ root.ways[i]? = some v := by
  induction up using List.reverseRecOn generalizing p with
  | nil =>
    rw [List.length_nil, climb, climb, List.mem_singleton]
    constructor
    · rintro rfl
      exact ⟨[], List.prefix_refl _, hp⟩
    · rintro ⟨v, hv, hi⟩
      rw [List.prefix_nil.mp hv] at hi
      exact index_eq_of_way root i p [] hi hp
  | append_singleton up k ih =>
    have hlt : p < root.index.length := by
      rw [Node.index, length_entriesFrom _ _ []]
      exact (List.getElem?_eq_some_iff.mp hp).1
    obtain ⟨e, hentry⟩ : ∃ e, root.index[p]? = some e := ⟨_, List.getElem?_eq_getElem hlt⟩
    have hindex := index_of_getElem? root p e hentry
    obtain ⟨way, hw, hs⟩ := exists_way root e (List.mem_of_getElem? hentry)
    have hway : way = up ++ [k] := by
      have h1 := hw.1
      rw [hindex, hp] at h1
      exact (Option.some.inj h1).symm
    obtain ⟨_, q, hq, hparent⟩ := hs.below up k hway
    rw [List.length_append, List.length_singleton, climb, List.mem_cons, List.getElem?_toArray,
      hentry, Option.bind_some, hparent, ih q hq]
    constructor
    · rintro (rfl | ⟨v, hv, hi⟩)
      · exact ⟨_, List.prefix_refl _, hp⟩
      · exact ⟨v, hv.trans (List.prefix_append _ _), hi⟩
    · rintro ⟨v, hv, hi⟩
      rcases List.prefix_concat_iff.mp hv with rfl | hv
      · exact Or.inl (index_eq_of_way root i p _ hi hp)
      · exact Or.inr ⟨v, hv, hi⟩

theorem tied_descendant_iff (root : Node) (p e : Entry) (hp : p ∈ root.index)
    (he : e ∈ root.index) :
    Tied root .descendant p e ↔ p.index ∈ ancestors root.index.toArray e := by
  obtain ⟨way, hew, hs⟩ := exists_way root e he
  obtain ⟨earlier, hpw, _⟩ := exists_way root p hp
  have htied : Tied root .descendant p e ↔ ∃ down, down ≠ [] ∧ way = earlier ++ down := by
    constructor
    · rintro ⟨v, w, hv, hw, hr⟩
      rw [way_unique root p _ _ hpw hv, way_unique root e _ _ hew hw]
      exact hr
    · intro hr
      exact ⟨earlier, way, hpw, hew, hr⟩
  rw [htied, ancestors, hs.depth]
  rcases List.eq_nil_or_concat' way with rfl | ⟨up, k, rfl⟩
  · rw [List.length_nil, climb]
    simp
  · obtain ⟨_, q, hq, hparent⟩ := hs.below up k rfl
    rw [hparent, List.length_append, List.length_singleton, mem_climb_iff root up q p.index hq]
    constructor
    · rintro ⟨down, hne, h⟩
      refine ⟨earlier, ?_, hpw.1⟩
      have hpre : earlier <+: up ++ [k] := ⟨down, h.symm⟩
      rcases List.prefix_concat_iff.mp hpre with rfl | hup
      · exact absurd (List.append_right_eq_self.mp h.symm) hne
      · exact hup
    · rintro ⟨v, ⟨down, rfl⟩, hi⟩
      obtain rfl : v = earlier := Option.some.inj (hi.symm.trans hpw.1)
      exact ⟨down ++ [k], by simp, by simp⟩

/-- A number exceeds the smallest of some numbers if it exceeds any of them. -/
theorem any_min?_lt_iff (xs : List Nat) (n : Nat) :
    xs.min?.any (fun first => first < n) = true ↔ ∃ x ∈ xs, x < n := by
  cases hm : xs.min? with
  | none =>
    rw [List.min?_eq_none_iff.mp hm]
    simp
  | some first =>
    obtain ⟨hf, hle⟩ := List.min?_eq_some_iff.mp hm
    rw [Option.any_some, decide_eq_true_eq]
    constructor
    · exact fun h => ⟨first, hf, h⟩
    · rintro ⟨x, hx, hlt⟩
      exact Nat.lt_of_le_of_lt (hle x hx) hlt

theorem any_firstPosition?_iff (earlier : List Entry) (parent : Option Nat) (n : Nat) :
    (firstPosition? earlier parent).any (fun first => first < n) = true ↔
      ∃ p ∈ earlier, p.site.parent = parent ∧ p.site.position < n := by
  rw [firstPosition?, any_min?_lt_iff]
  simp [and_assoc]

/-- Tying two steps keeps the entries of the later one to which a chain can go on. -/
theorem mem_tied_iff (root : Node) (c : Combinator) (earlier later : List Entry)
    (hearlier : ∀ p ∈ earlier, p ∈ root.index) (hlater : ∀ e ∈ later, e ∈ root.index) (e : Entry) :
    e ∈ tied root.index.toArray c earlier later ↔ e ∈ later ∧ ∃ p ∈ earlier, Tied root c p e := by
  cases c with
  | child =>
    rw [tied, List.mem_filter]
    refine and_congr_right fun he => ?_
    simp only [List.contains_iff_mem, List.mem_map]
    refine exists_congr fun p => and_congr_right fun hp => ?_
    rw [tied_child_iff root p e (hearlier p hp) (hlater e he), eq_comm]
  | descendant =>
    rw [tied, List.mem_filter]
    refine and_congr_right fun he => ?_
    simp only [List.any_eq_true, List.contains_iff_mem, List.mem_map]
    constructor
    · rintro ⟨_, hi, p, hp, rfl⟩
      exact ⟨p, hp, (tied_descendant_iff root p e (hearlier p hp) (hlater e he)).mpr hi⟩
    · rintro ⟨p, hp, ht⟩
      exact ⟨p.index, (tied_descendant_iff root p e (hearlier p hp) (hlater e he)).mp ht, p, hp, rfl⟩
  | adjacent =>
    rw [tied, List.mem_filter]
    refine and_congr_right fun he => ?_
    simp only [List.contains_iff_mem, List.mem_map, Prod.mk.injEq]
    refine exists_congr fun p => and_congr_right fun hp => ?_
    rw [tied_adjacent_iff root p e (hearlier p hp) (hlater e he)]
  | sibling =>
    rw [tied, List.mem_filter]
    refine and_congr_right fun he => ?_
    rw [any_firstPosition?_iff]
    refine exists_congr fun p => and_congr_right fun hp => ?_
    rw [tied_sibling_iff root p e (hearlier p hp) (hlater e he)]

/-- One step after the other, the entries kept are the ends of the chains so far. -/
theorem mem_foldl_tied_iff (source : List UInt8) (root : Node) (rest : List (Combinator × Step))
    (earlier : List Entry) (hearlier : ∀ p ∈ earlier, p ∈ root.index) (e : Entry) :
    e ∈ rest.foldl (fun earlier (c, s) =>
        tied root.index.toArray c earlier (selectStep source root.index s)) earlier ↔
      ∃ m ∈ earlier, Chain source root m rest e := by
  induction rest generalizing earlier with
  | nil =>
    constructor
    · exact fun he => ⟨e, he, Chain.done e⟩
    · rintro ⟨_, hm, ⟨⟩⟩
      exact hm
  | cons cs rest ih =>
    obtain ⟨c, s⟩ := cs
    have hstep : ∀ m ∈ selectStep source root.index s, m ∈ root.index := fun m hm =>
      (selectStep_sublist source root.index s).subset hm
    have hkept := mem_tied_iff root c earlier _ hearlier hstep
    rw [List.foldl_cons, ih _ fun m hm => hstep m ((hkept m).mp hm).1]
    constructor
    · rintro ⟨m, hm, hchain⟩
      obtain ⟨hs, p, hp, ht⟩ := (hkept m).mp hm
      exact ⟨p, hp, Chain.next p m e c s rest ht hs hchain⟩
    · rintro ⟨p, hp, hchain⟩
      cases hchain with
      | next _ m _ _ _ _ ht hs hrest => exact ⟨m, (hkept m).mpr ⟨hs, p, hp, ht⟩, hrest⟩

theorem foldl_tied_sublist (source : List UInt8) (entries : List Entry)
    (rest : List (Combinator × Step)) (earlier : List Entry) (h : earlier.Sublist entries) :
    (rest.foldl (fun earlier (c, s) =>
      tied entries.toArray c earlier (selectStep source entries s)) earlier).Sublist entries := by
  induction rest generalizing earlier with
  | nil => exact h
  | cons cs rest ih =>
    exact ih _ ((tied_sublist _ _ _ _).trans (selectStep_sublist source entries cs.2))

theorem selectQuery_sublist (source : List UInt8) (entries : List Entry) (q : Query) :
    (selectQuery source entries q).Sublist entries :=
  foldl_tied_sublist source entries q.rest _ (selectStep_sublist source entries q.first)

/-- What a selector selects is in the index, and in its order. -/
theorem select_sublist (source : List UInt8) (entries : List Entry) (l : SelectorList) :
    (select source entries l).Sublist entries := by
  rw [select]
  split
  next q _ => exact selectQuery_sublist source entries q
  next => exact List.filter_sublist

theorem mem_selectQuery_iff (source : List UInt8) (root : Node) (q : Query) (e : Entry) :
    e ∈ selectQuery source root.index q ↔
      ∃ m ∈ selectStep source root.index q.first, Chain source root m q.rest e := by
  have hfirst := selectStep_sublist source root.index q.first
  exact mem_foldl_tied_iff source root q.rest _ (fun p hp => hfirst.subset hp) e

/-- A query selects the ends of the chains through its steps, in the order of the index and each
once. -/
theorem selectQuery_eq_chains (source : List UInt8) (root : Node) (q : Query) :
    ((selectQuery source root.index q).Pairwise fun a b => a.index < b.index) ∧
    ∀ e, e ∈ selectQuery source root.index q ↔
      ∃ m ∈ selectStep source root.index q.first, Chain source root m q.rest e := by
  constructor
  · exact (pairwise_index root).sublist (selectQuery_sublist source root.index q)
  · exact mem_selectQuery_iff source root q

end TreeSelect.Matching
