import TreeSelect.Proofs.IndexOrder
import TreeSelect.Proofs.StepOrder

namespace TreeSelect.Matching
open Selector TreeSelect.Tree

/-- What `*:nth-child(k)` selects, and each other query that asks for a place and for nothing else. -/
def standing (source : List UInt8) (root : Node) (place : Place) : List Entry :=
  select source root.index ⟨[⟨⟨none, [], [.place place]⟩, []⟩]⟩

/-- The entries of the children of an entry, in document order. -/
def childrenOf (root : Node) (p : Entry) : List Entry :=
  root.index.filter fun e => e.site.parent == some p.index

section Standing

theorem mem_standing_iff (source : List UInt8) (root : Node) (place : Place) (e : Entry) :
    e ∈ standing source root place ↔ e ∈ root.index ∧ standsAt e.site place = true := by
  have hpick : ∀ p, Pseudo.pick p ∉ [Pseudo.place place] := by simp
  have hpasses : Passes source ⟨none, [], [.place place]⟩ e ↔ standsAt e.site place = true := by
    constructor
    · intro h
      exact h.places place List.mem_cons_self
    · intro h
      refine ⟨nofun, nofun, ?_⟩
      intro other hother
      obtain rfl : other = place := by simpa using hother
      exact h
  have hstep : standing source root place =
      selectStep source root.index ⟨none, [], [.place place]⟩ := rfl
  rw [hstep, selectStep_of_no_pick _ _ _ hpick, mem_passing_iff, hpasses]

/-- What stands in a place has a parent, so the root stands in none. -/
theorem parent_of_standsAt (site : Site) (place : Place) (h : standsAt site place = true) :
    site.parent ≠ none := by
  unfold standsAt at h
  rw [Bool.and_eq_true] at h
  exact Option.isSome_iff_ne_none.mp h.1

theorem standsAt_of_parent (site : Site) (i : Nat) (place : Place) (h : site.parent = some i) :
    standsAt site place = true ↔
      match place with
      | .firstChild => site.position = 0
      | .lastChild => site.position + 1 = site.siblings
      | .nthChild k => site.position + 1 = max k 1
      | .nthLastChild k => site.position + max k 1 = site.siblings := by
  unfold standsAt
  rw [h]
  cases place <;> simp

end Standing

section Children

theorem mem_childrenOf_iff (root : Node) (p e : Entry) :
    e ∈ childrenOf root p ↔ e ∈ root.index ∧ e.site.parent = some p.index := by
  rw [childrenOf, List.mem_filter, beq_iff_eq]

/-- The children stand in the order of their positions, and there are as many as are seen. -/
theorem length_childrenOf (root : Node) (p : Entry) (hp : p ∈ root.index) :
    (childrenOf root p).length = p.node.seen.length := by
  have hpositions := congrArg List.length (positions_of_children root p hp)
  rw [List.length_map, List.length_range] at hpositions
  exact hpositions

theorem position_of_child (root : Node) (p c : Entry) (hp : p ∈ root.index) (i : Nat)
    (hc : (childrenOf root p)[i]? = some c) : c.site.position = i := by
  have hposition : ((childrenOf root p).map fun e => e.site.position)[i]? = some c.site.position := by
    rw [List.getElem?_map, hc, Option.map_some]
  rw [childrenOf, positions_of_children root p hp] at hposition
  obtain ⟨hlt, heq⟩ := List.getElem?_eq_some_iff.mp hposition
  rw [List.getElem_range] at heq
  exact heq.symm

/-- Every child knows how many it is one of. -/
theorem siblings_of_child (root : Node) (p c : Entry) (hp : p ∈ root.index)
    (hc : c ∈ childrenOf root p) : c.site.siblings = p.node.seen.length := by
  obtain ⟨hmem, hparent⟩ := (mem_childrenOf_iff root p c).mp hc
  rcases isChild_of_mem_index root c hmem with htop | ⟨q, hq, hchild⟩
  · rw [htop] at hparent
    exact absurd hparent nofun
  · have hindex : q.index = p.index := by
      have hsame := hchild.parent_eq
      rw [hparent] at hsame
      exact (Option.some.inj hsame).symm
    obtain rfl : q = p := eq_of_index_eq root q p hq hp hindex
    obtain ⟨place, -, -, hsite⟩ := hchild
    rw [hsite]

/-- The children that have entries are those that are seen, one for one. -/
theorem node_childrenOf (root : Node) (p : Entry) (hp : p ∈ root.index) :
    (childrenOf root p).map Entry.node = p.node.seen := by
  obtain ⟨way, hway, -⟩ := exists_way root p hp
  apply List.ext_getElem?
  intro i
  rw [List.getElem?_map]
  cases hc : (childrenOf root p)[i]? with
  | none =>
    have hle := List.getElem?_eq_none_iff.mp hc
    rw [length_childrenOf root p hp] at hle
    exact (List.getElem?_eq_none hle).symm
  | some c =>
    obtain ⟨hmem, hparent⟩ := (mem_childrenOf_iff root p c).mp (List.mem_of_getElem? hc)
    obtain ⟨w, hw, -⟩ := exists_way root c hmem
    -- the way to a child ends in its position
    obtain ⟨k, rfl⟩ := (parent_eq_iff_of_ways root p c way w hway hmem hw).mp hparent
    have hk : k = i := by
      rw [← position_of_way root c hmem way k hw, position_of_child root p c hp i hc]
    rw [Option.map_some, ← at?_append root p.node way i hway.2, ← hk]
    exact hw.2.symm

/-- Which place a child stands in is told by its place in the list of children. -/
theorem child_standing_iff (source : List UInt8) (root : Node) (p c : Entry) (hp : p ∈ root.index)
    (i : Nat) (hc : (childrenOf root p)[i]? = some c) (place : Place) :
    c ∈ standing source root place ↔
      match place with
      | .firstChild => i = 0
      | .lastChild => i + 1 = p.node.seen.length
      | .nthChild k => i + 1 = max k 1
      | .nthLastChild k => i + max k 1 = p.node.seen.length := by
  have hchild := List.mem_of_getElem? hc
  obtain ⟨hmem, hparent⟩ := (mem_childrenOf_iff root p c).mp hchild
  rw [mem_standing_iff, standsAt_of_parent c.site p.index place hparent,
    position_of_child root p c hp i hc, siblings_of_child root p c hp hchild]
  exact and_iff_right hmem

end Children

/-- The root has number 0 and stands in no place. -/
theorem index_of_standing (source : List UInt8) (root : Node) (place : Place) (e : Entry)
    (he : e ∈ standing source root place) : e.index ≠ 0 := by
  obtain ⟨hmem, hstands⟩ := (mem_standing_iff source root place e).mp he
  intro hzero
  have hfirst : root.index[0]? = some ⟨0, root, ⟨none, 0, none, 0, 1⟩⟩ := by
    cases root
    rfl
  have hat := getElem?_of_mem_index root e hmem
  rw [hzero, hfirst] at hat
  obtain rfl := Option.some.inj hat
  exact parent_of_standsAt _ place hstands rfl

/-- Of the `m` children of a node the `k`-th and no other stands in the place `k`, if there are so many.
It is the one in the place `m + 1 - k` from the end, the first child for 1 and the last for `m`. The root
stands in no place. -/
theorem children_by_place (source : List UInt8) (root : Node) (p : Entry) (hp : p ∈ root.index)
    (k : Nat) (hk : 1 ≤ k) :
    let m := p.node.seen.length
    let children := childrenOf root p
    children.map Entry.node = p.node.seen ∧
    (k ≤ m → ∃ c, children[k - 1]? = some c ∧
      (∀ e ∈ children, e ∈ standing source root (.nthChild k) ↔ e = c) ∧
      (∀ j, 1 ≤ j → (c ∈ standing source root (.nthLastChild j) ↔ j = m + 1 - k)) ∧
      (c ∈ standing source root .firstChild ↔ k = 1) ∧
      (c ∈ standing source root .lastChild ↔ k = m)) ∧
    (m < k → ∀ e ∈ children, e ∉ standing source root (.nthChild k)) ∧
    ∀ place, ∀ e ∈ standing source root place, e.index ≠ 0 := by
  intro m children
  have hlength : children.length = m := length_childrenOf root p hp
  have hstands := child_standing_iff source root p
  refine ⟨node_childrenOf root p hp, ?_, ?_, index_of_standing source root⟩
  · intro hle
    have hlt : k - 1 < children.length := by omega
    have hc : children[k - 1]? = some children[k - 1] := List.getElem?_eq_getElem hlt
    have hplace := hstands children[k - 1] hp (k - 1) hc
    refine ⟨children[k - 1], hc, ?_, ?_, ?_, ?_⟩
    · intro e he
      obtain ⟨i, hi⟩ := List.mem_iff_getElem?.mp he
      rw [hstands e hp i hi]
      constructor
      · intro heq
        have hik : i = k - 1 := by omega
        rw [hik, hc] at hi
        exact (Option.some.inj hi).symm
      · intro heq
        have hplaced : k - 1 + 1 = max k 1 := by omega
        have hnth := (hplace (.nthChild k)).mpr hplaced
        rw [← heq, hstands e hp i hi] at hnth
        exact hnth
    · intro j hj
      rw [hplace]
      omega
    · rw [hplace]
      omega
    · rw [hplace]
      omega
  · intro hlt e he hnth
    obtain ⟨i, hi⟩ := List.mem_iff_getElem?.mp he
    obtain ⟨hin, -⟩ := List.getElem?_eq_some_iff.mp hi
    rw [hstands e hp i hi] at hnth
    omega

/-- The tree of `[a,/**/1]`, of whose children two are seen. -/
def remarkedPair : Node :=
  ⟨plainLabel "array" 0 9, [
    ⟨{ plainLabel "[" 0 1 with named := false }, []⟩,
    ⟨plainLabel "identifier" 1 2, []⟩,
    ⟨{ plainLabel "," 2 3 with named := false }, []⟩,
    ⟨{ plainLabel "comment" 3 7 with extra := true }, []⟩,
    ⟨plainLabel "number" 7 8, []⟩,
    ⟨{ plainLabel "]" 8 9 with named := false }, []⟩]⟩

theorem place_remarkedPair :
    let source := Text.Utf8.encode "[a,/**/1]".toList
    let top : Entry := ⟨0, remarkedPair, ⟨none, 0, none, 0, 1⟩⟩
    top ∈ remarkedPair.index ∧ 1 ≤ 2 ∧ top.node.seen.length = 2 ∧
    (∃ c, (childrenOf remarkedPair top)[1]? = some c ∧
      (∀ e ∈ childrenOf remarkedPair top,
        e ∈ standing source remarkedPair (.nthChild 2) ↔ e = c) ∧
      c ∈ standing source remarkedPair (.nthLastChild 1) ∧
      c ∉ standing source remarkedPair .firstChild ∧
      c ∈ standing source remarkedPair .lastChild) ∧
    ∀ e ∈ childrenOf remarkedPair top, e ∉ standing source remarkedPair (.nthChild 3) := by
  intro source top
  have htop : top ∈ remarkedPair.index := List.mem_of_getElem? (i := 0) rfl
  have hseen : top.node.seen.length = 2 := by decide
  obtain ⟨-, htwo, -⟩ := children_by_place source remarkedPair top htop 2 (by decide)
  obtain ⟨-, -, hthree, -⟩ := children_by_place source remarkedPair top htop 3 (by decide)
  rw [hseen] at htwo hthree
  obtain ⟨c, hc, honly, hend, hfirst, hlast⟩ := htwo (by decide)
  refine ⟨htop, by decide, hseen, ⟨c, hc, honly, ?_, ?_, ?_⟩, hthree (by decide)⟩
  · exact (hend 1 (by decide)).mpr rfl
  · exact fun h => absurd (hfirst.mp h) (by decide)
  · exact hlast.mpr rfl

end TreeSelect.Matching
