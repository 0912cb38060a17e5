import Mathlib.Data.List.Sort
import TreeSelect.Matching.Chain
import TreeSelect.Proofs.QueryChain

namespace TreeSelect.Matching
open Selector TreeSelect.Tree

/-- What some queries select together, found in the same way whether they are one or many. -/
def selectAny (source : List UInt8) (entries : List Entry) (qs : List Query) : List Entry :=
  let hits := qs.flatMap fun q => (selectQuery source entries q).map fun e => e.index
  entries.filter fun e => hits.contains e.index

/-- Two lists of entries in the order of the index as one; an entry of both is taken once. -/
def merged : List Entry → List Entry → List Entry
  | [], bs => bs
  | as, [] => as
  | a :: as, b :: bs =>
    if a.index < b.index then a :: merged as (b :: bs)
    else if b.index < a.index then b :: merged (a :: as) bs
    else a :: merged as bs
termination_by as bs => as.length + bs.length

/-- The number of an entry tells which entry of the index it is. -/
theorem eq_of_index_eq (root : Node) (a b : Entry) (ha : a ∈ root.index) (hb : b ∈ root.index)
    (h : a.index = b.index) : a = b := by
  have hi := getElem?_of_mem_index root a ha
  rw [h, getElem?_of_mem_index root b hb] at hi
  exact (Option.some.inj hi).symm

/-- Entries in the order of the index are told by which entries they are. -/
theorem eq_of_mem_iff (as bs : List Entry) (ha : as.Pairwise fun a b => a.index < b.index)
    (hb : bs.Pairwise fun a b => a.index < b.index) (h : ∀ e, e ∈ as ↔ e ∈ bs) : as = bs := by
  have : Std.Antisymm fun a b : Entry => a.index < b.index :=
    ⟨fun _ _ hlt hgt => absurd hgt (Nat.lt_asymm hlt)⟩
  have : Std.Irrefl fun a b : Entry => a.index < b.index := ⟨fun _ => Nat.lt_irrefl _⟩
  exact ha.eq_of_mem_iff hb h

theorem mem_merged_iff (as bs : List Entry) (h : ∀ a ∈ as, ∀ b ∈ bs, a.index = b.index → a = b)
    (e : Entry) : e ∈ merged as bs ↔ e ∈ as ∨ e ∈ bs := by
  fun_induction merged as bs with
  | case1 bs => simp
  | case2 as => simp
  | case3 a as b bs hlt ih =>
    rw [List.mem_cons, ih fun x hx => h x (List.mem_cons_of_mem a hx),
      List.mem_cons (l := as), or_assoc]
  | case4 a as b bs _ hlt ih =>
    rw [List.mem_cons, ih fun x hx y hy => h x hx y (List.mem_cons_of_mem b hy),
      List.mem_cons (l := bs)]
    exact or_left_comm
  | case5 a as b bs hle hge ih =>
    -- neither number is smaller, so both lists begin with the same entry
    have hab : a = b := h a List.mem_cons_self b List.mem_cons_self (by omega)
    rw [List.mem_cons,
      ih fun x hx y hy => h x (List.mem_cons_of_mem a hx) y (List.mem_cons_of_mem b hy)]
    subst hab
    simp only [List.mem_cons]
    tauto

theorem pairwise_merged (as bs : List Entry) (ha : as.Pairwise fun a b => a.index < b.index)
    (hb : bs.Pairwise fun a b => a.index < b.index)
    (h : ∀ a ∈ as, ∀ b ∈ bs, a.index = b.index → a = b) :
    (merged as bs).Pairwise fun a b => a.index < b.index := by
  fun_induction merged as bs with
  | case1 bs => exact hb
  | case2 as => exact ha
  | case3 a as b bs hlt ih =>
    obtain ⟨hfirst, ha⟩ := List.pairwise_cons.mp ha
    have h' : ∀ x ∈ as, ∀ y ∈ b :: bs, x.index = y.index → x = y :=
      fun x hx => h x (List.mem_cons_of_mem a hx)
    refine List.pairwise_cons.mpr ⟨fun e he => ?_, ih ha hb h'⟩
    rcases (mem_merged_iff as (b :: bs) h' e).mp he with he | he
    · exact hfirst e he
    · rcases List.mem_cons.mp he with rfl | he
      · exact hlt
      · exact Nat.lt_trans hlt ((List.pairwise_cons.mp hb).1 e he)
  | case4 a as b bs _ hlt ih =>
    obtain ⟨hfirst, hb⟩ := List.pairwise_cons.mp hb
    have h' : ∀ x ∈ a :: as, ∀ y ∈ bs, x.index = y.index → x = y :=
      fun x hx y hy => h x hx y (List.mem_cons_of_mem b hy)
    refine List.pairwise_cons.mpr ⟨fun e he => ?_, ih ha hb h'⟩
    rcases (mem_merged_iff (a :: as) bs h' e).mp he with he | he
    · rcases List.mem_cons.mp he with rfl | he
      · exact hlt
      · exact Nat.lt_trans hlt ((List.pairwise_cons.mp ha).1 e he)
    · exact hfirst e he
  | case5 a as b bs hle hge ih =>
    obtain ⟨hfirst, ha⟩ := List.pairwise_cons.mp ha
    obtain ⟨hfirst', hb⟩ := List.pairwise_cons.mp hb
    have h' : ∀ x ∈ as, ∀ y ∈ bs, x.index = y.index → x = y :=
      fun x hx y hy => h x (List.mem_cons_of_mem a hx) y (List.mem_cons_of_mem b hy)
    refine List.pairwise_cons.mpr ⟨fun e he => ?_, ih ha hb h'⟩
    rcases (mem_merged_iff as bs h' e).mp he with he | he
    · exact hfirst e he
    · -- `b` has the number of `a` and stands before `e`
      have hbe := hfirst' e he
      omega

theorem mem_selectAny_iff (source : List UInt8) (root : Node) (qs : List Query) (e : Entry) :
    e ∈ selectAny source root.index qs ↔ ∃ q ∈ qs, e ∈ selectQuery source root.index q := by
  simp only [selectAny, List.mem_filter, List.contains_iff_mem, List.mem_flatMap, List.mem_map]
  constructor
  · -- a hit is known by its number only, which no other entry has
    rintro ⟨he, q, hq, p, hp, hi⟩
    have hpin := (selectQuery_sublist source root.index q).subset hp
    obtain rfl := eq_of_index_eq root p e hpin he hi
    exact ⟨q, hq, hp⟩
  · rintro ⟨q, hq, he⟩
    exact ⟨(selectQuery_sublist source root.index q).subset he, q, hq, e, he, rfl⟩

/-- A query that stands alone is evaluated by itself, with the same result. -/
theorem select_eq_selectAny (source : List UInt8) (root : Node) (l : SelectorList) :
    select source root.index l = selectAny source root.index l.queries := by
  rw [select]
  split
  · next q hq =>
    rw [hq]
    refine eq_of_mem_iff _ _ ((pairwise_index root).sublist (selectQuery_sublist _ _ q))
      ((pairwise_index root).sublist List.filter_sublist) fun e => ?_
    rw [mem_selectAny_iff]
    simp
  · rfl

theorem pairwise_select (source : List UInt8) (root : Node) (l : SelectorList) :
    (select source root.index l).Pairwise fun a b => a.index < b.index :=
  (pairwise_index root).sublist (select_sublist source root.index l)

theorem mem_select_iff (source : List UInt8) (root : Node) (l : SelectorList) (e : Entry) :
    e ∈ select source root.index l ↔ ∃ q ∈ l.queries, e ∈ select source root.index ⟨[q]⟩ := by
  rw [select_eq_selectAny, mem_selectAny_iff]
  exact Iff.rfl

/-- Several lists that are asked for one after the other have together the entries of each. -/
theorem merged_select (source : List UInt8) (root : Node) (parts : List SelectorList) :
    let together := parts.foldr (fun l es => merged (select source root.index l) es) []
    together.Pairwise (fun a b => a.index < b.index) ∧
      ∀ e, e ∈ together ↔ ∃ l ∈ parts, e ∈ select source root.index l := by
  induction parts with
  | nil => simp
  | cons l parts ih =>
    obtain ⟨hsorted, hmem⟩ := ih
    have hone : ∀ a ∈ select source root.index l, ∀ b ∈ parts.foldr
        (fun l es => merged (select source root.index l) es) [], a.index = b.index → a = b := by
      intro a ha b hb
      obtain ⟨m, -, hb⟩ := (hmem b).mp hb
      exact eq_of_index_eq root a b ((select_sublist source root.index l).subset ha)
        ((select_sublist source root.index m).subset hb)
    refine ⟨pairwise_merged _ _ (pairwise_select source root l) hsorted hone, fun e => ?_⟩
    rw [List.foldr_cons, mem_merged_iff _ _ hone, hmem, List.exists_mem_cons_iff]

/-- The matches of a list are those of its queries, each once and in document order, and a query that
stands alone is no exception. Lists with the same queries have the same matches, and so has every list
that is asked for in parts whose answers are merged. -/
theorem select_eq_union (source : List UInt8) (root : Node) (l : SelectorList) (withCode : Bool) :
    (select source root.index l).Sublist root.index ∧
    ((select source root.index l).Pairwise fun a b => a.index < b.index) ∧
    (∀ e, e ∈ select source root.index l ↔
      ∃ q ∈ l.queries, e ∈ select source root.index ⟨[q]⟩) ∧
    select source root.index l = selectAny source root.index l.queries ∧
    (∀ other : SelectorList, (∀ q, q ∈ other.queries ↔ q ∈ l.queries) →
      query source root other withCode = query source root l withCode) ∧
    ∀ parts : List SelectorList, (∀ q, q ∈ l.queries ↔ ∃ p ∈ parts, q ∈ p.queries) →
      query source root l withCode =
        (parts.foldr (fun p es => merged (select source root.index p) es) []).map
          fun e => matchOf source withCode e.node := by
  have hsorted := pairwise_select source root
  refine ⟨select_sublist source root.index l, hsorted l, mem_select_iff source root l,
    select_eq_selectAny source root l, ?_, ?_⟩
  · intro other h
    have hsame : select source root.index other = select source root.index l :=
      eq_of_mem_iff _ _ (hsorted other) (hsorted l) fun e => by
        rw [mem_select_iff source root other, mem_select_iff source root l]
        simp only [h]
    rw [query, query, hsame]
  · intro parts h
    obtain ⟨htogether, hmem⟩ := merged_select source root parts
    refine congrArg (List.map _) (eq_of_mem_iff _ _ (hsorted l) htogether fun e => ?_)
    rw [hmem, mem_select_iff source root l]
    constructor
    · rintro ⟨q, hq, he⟩
      obtain ⟨p, hp, hqp⟩ := (h q).mp hq
      exact ⟨p, hp, (mem_select_iff source root p e).mpr ⟨q, hqp, he⟩⟩
    · rintro ⟨p, hp, he⟩
      obtain ⟨q, hqp, he⟩ := (mem_select_iff source root p e).mp he
      exact ⟨q, (h q).mpr ⟨p, hp, hqp⟩, he⟩

def plainLabel (type : String) (start stop : Nat) : Label :=
  ⟨type, start, stop, ⟨0, start⟩, ⟨0, stop⟩, none, true, false, false, false⟩

/-- The tree of `[a, 1]`. -/
def pairTree : Node :=
  ⟨plainLabel "array" 0 6, [⟨plainLabel "identifier" 1 2, []⟩, ⟨plainLabel "number" 4 5, []⟩]⟩

def queryOf (type : String) : Query :=
  ⟨⟨some type, [], []⟩, []⟩

theorem union_pairTree :
    let source := Text.Utf8.encode "[a, 1]".toList
    let l : SelectorList := ⟨[queryOf "number", queryOf "identifier", queryOf "number"]⟩
    let both : SelectorList := ⟨[queryOf "identifier", queryOf "number"]⟩
    (∀ q, q ∈ both.queries ↔ q ∈ l.queries) ∧
    query source pairTree both true = query source pairTree l true ∧
    query source pairTree l true =
      [⟨"identifier", none, ⟨⟨1, 1⟩, ⟨1, 2⟩⟩, some "a"⟩,
        ⟨"number", none, ⟨⟨1, 4⟩, ⟨1, 5⟩⟩, some "1"⟩] ∧
    query source pairTree l true =
      ([both, ⟨[queryOf "number"]⟩].foldr
        (fun p es => merged (select source pairTree.index p) es) []).map
          fun e => matchOf source true e.node := by
  intro source l both
  have hsame : ∀ q, q ∈ both.queries ↔ q ∈ l.queries := by
    simp [both, l, or_comm]
  have hparts : ∀ q, q ∈ l.queries ↔ ∃ p ∈ [both, ⟨[queryOf "number"]⟩], q ∈ p.queries := by
    simp [both, l, or_comm]
  obtain ⟨-, -, -, -, hset, hgroups⟩ := select_eq_union source pairTree l true
  exact ⟨hsame, hset both hsame, by decide +kernel, hgroups _ hparts⟩

end TreeSelect.Matching
