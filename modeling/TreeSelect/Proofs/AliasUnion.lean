import TreeSelect.Proofs.StepOrder
import TreeSelect.Proofs.TypeNames

namespace TreeSelect.Selector

/-- The step in a place of a query, counted from 0. -/
def Query.step? (q : Query) : Nat → Option Step
  | 0 => some q.first
  | i + 1 => q.rest[i]?.map Prod.snd

/-- A query with another step in one place. -/
def Query.withStep (q : Query) (s : Step) : Nat → Query
  | 0 => { q with first := s }
  | i + 1 => { q with rest := q.rest.modify i fun tie => (tie.1, s) }

/-- A step that takes nodes of another type. -/
def Step.retyped (s : Step) (type : String) : Step :=
  { s with type := some type }

end TreeSelect.Selector

namespace TreeSelect.Matching
open Selector TreeSelect.Tree

section Chains
variable (source : List UInt8) (root : Node)

theorem chain_cons_iff (p e : Entry) (c : Combinator) (s : Step) (rest : List (Combinator × Step)) :
    Chain source root p ((c, s) :: rest) e ↔
      ∃ m ∈ selectStep source root.index s, Tied root c p m ∧ Chain source root m rest e := by
  constructor
  · intro h
    cases h with
    | next _ m _ _ _ _ htied hm hrest => exact ⟨m, hm, htied, hrest⟩
  · intro h
    obtain ⟨m, hm, htied, hrest⟩ := h
    exact Chain.next p m e c s rest htied hm hrest

/-- A step selects what some steps select together. -/
def IsUnion (s : Step) (steps : List Step) : Prop :=
  ∀ e, e ∈ selectStep source root.index s ↔ ∃ t ∈ steps, e ∈ selectStep source root.index t

theorem exists_union_iff (s : Step) (steps : List Step) (hunion : IsUnion source root s steps)
    (P : Entry → Prop) :
    (∃ m ∈ selectStep source root.index s, P m) ↔
      ∃ t ∈ steps, ∃ m ∈ selectStep source root.index t, P m := by
  constructor
  · intro h
    obtain ⟨m, hm, hP⟩ := h
    obtain ⟨t, ht, hmt⟩ := (hunion m).mp hm
    exact ⟨t, ht, m, hmt, hP⟩
  · intro h
    obtain ⟨t, ht, m, hmt, hP⟩ := h
    exact ⟨m, (hunion m).mpr ⟨t, ht, hmt⟩, hP⟩

/-- A chain through a union goes through one of its parts. -/
theorem chain_union_iff (s : Step) (steps : List Step) (hunion : IsUnion source root s steps)
    (rest : List (Combinator × Step)) (i : Nat) (hs : rest[i]?.map Prod.snd = some s) (p e : Entry) :
    Chain source root p rest e ↔
      ∃ t ∈ steps, Chain source root p (rest.modify i fun tie => (tie.1, t)) e := by
  induction rest generalizing i p with
  | nil => exact absurd hs nofun
  | cons tie rest ih =>
    obtain ⟨c, u⟩ := tie
    cases i with
    | zero =>
      obtain rfl : u = s := Option.some.inj hs
      simp only [List.modify_zero_cons, chain_cons_iff]
      exact exists_union_iff source root u steps hunion _
    | succ i =>
      simp only [List.modify_succ_cons, chain_cons_iff]
      constructor
      · intro h
        obtain ⟨m, hm, htied, hrest⟩ := h
        obtain ⟨t, ht, hchain⟩ := (ih i hs m).mp hrest
        exact ⟨t, ht, m, hm, htied, hchain⟩
      · intro h
        obtain ⟨t, ht, m, hm, htied, hchain⟩ := h
        exact ⟨m, hm, htied, (ih i hs m).mpr ⟨t, ht, hchain⟩⟩

/-- A union in any place of a query makes the query a union. -/
theorem mem_selectQuery_union_iff (s : Step) (steps : List Step)
    (hunion : IsUnion source root s steps) (q : Query) (i : Nat) (hs : q.step? i = some s)
    (e : Entry) :
    e ∈ selectQuery source root.index q ↔
      ∃ t ∈ steps, e ∈ selectQuery source root.index (q.withStep t i) := by
  simp only [mem_selectQuery_iff]
  cases i with
  | zero =>
    obtain rfl : q.first = s := Option.some.inj hs
    exact exists_union_iff source root q.first steps hunion _
  | succ i =>
    have hrest := chain_union_iff source root s steps hunion q.rest i hs
    constructor
    · intro h
      obtain ⟨m, hm, hchain⟩ := h
      obtain ⟨t, ht, hchain⟩ := (hrest m e).mp hchain
      exact ⟨t, ht, m, hm, hchain⟩
    · intro h
      obtain ⟨t, ht, m, hm, hchain⟩ := h
      exact ⟨m, hm, (hrest m e).mpr ⟨t, ht, hchain⟩⟩

end Chains

/-- To pass a step of one type is to be of this type and to pass the step that asks for none. -/
theorem passes_retyped_iff (source : List UInt8) (s : Step) (type : String) (e : Entry) :
    Passes source (s.retyped type) e ↔
      e.node.type ∈ ESTree.nodeTypes type ∧ Passes source { s with type := none } e := by
  constructor
  · intro h
    exact ⟨h.type type rfl, nofun, h.predicates, h.places⟩
  · intro h
    obtain ⟨htype, hrest⟩ := h
    refine ⟨?_, hrest.predicates, hrest.places⟩
    intro name hname
    obtain rfl : type = name := Option.some.inj hname
    exact htype

/-- The step with the name is the union of those with the types. -/
theorem isUnion_of_lookup (source : List UInt8) (root : Node) (s : Step) (name : String)
    (ts : List String) (hname : s.type = some name) (halias : ESTree.types.lookup name = some ts)
    (hpick : ∀ p, Pseudo.pick p ∉ s.pseudos) :
    IsUnion source root s (ts.map s.retyped) := by
  have hself : s.retyped name = s := by rw [Step.retyped, ← hname]
  have hnodes : ESTree.nodeTypes name = ts := by rw [ESTree.nodeTypes, halias]
  have hmem (type : String) (e : Entry) : e ∈ selectStep source root.index (s.retyped type) ↔
      e ∈ root.index ∧ e.node.type ∈ ESTree.nodeTypes type ∧
        Passes source { s with type := none } e := by
    rw [selectStep_of_no_pick source root.index (s.retyped type) hpick, mem_passing_iff,
      passes_retyped_iff]
  intro e
  have hwhole := hmem name e
  rw [hself, hnodes] at hwhole
  rw [hwhole]
  constructor
  · intro h
    obtain ⟨he, htype, hrest⟩ := h
    refine ⟨s.retyped e.node.type, List.mem_map_of_mem htype, ?_⟩
    rw [hmem, ESTree.nodeTypes_of_lookup name e.node.type ts halias htype]
    exact ⟨he, List.mem_singleton_self _, hrest⟩
  · intro h
    obtain ⟨t, ht, he⟩ := h
    obtain ⟨type, htype, rfl⟩ := List.mem_map.mp ht
    rw [hmem, ESTree.nodeTypes_of_lookup name type ts halias htype, List.mem_singleton] at he
    obtain ⟨he, heq, hrest⟩ := he
    exact ⟨he, heq ▸ htype, hrest⟩

/-- A query with an ESTree name in one of its steps has the matches of the list of queries that have
each of the types of that name there, for a step that makes no pick. -/
theorem select_alias_eq_types (source : List UInt8) (root : Node) (withCode : Bool) (q : Query)
    (i : Nat) (s : Step) (name : String) (ts : List String) (hstep : q.step? i = some s)
    (hname : s.type = some name) (halias : ESTree.types.lookup name = some ts)
    (hpick : ∀ p, Pseudo.pick p ∉ s.pseudos) :
    let each : SelectorList := ⟨ts.map fun type => q.withStep (s.retyped type) i⟩
    select source root.index ⟨[q]⟩ = select source root.index each ∧
      query source root ⟨[q]⟩ withCode = query source root each withCode := by
  intro each
  have hunion := isUnion_of_lookup source root s name ts hname halias hpick
  have hsame : select source root.index ⟨[q]⟩ = select source root.index each := by
    apply eq_of_mem_iff _ _ (pairwise_select source root ⟨[q]⟩) (pairwise_select source root each)
    intro e
    rw [select_eq_selectAny source root each, mem_selectAny_iff, select,
      mem_selectQuery_union_iff source root s (ts.map s.retyped) hunion q i hstep]
    simp only [each, List.mem_map, exists_exists_and_eq_and]
  refine ⟨hsame, ?_⟩
  rw [query, query, hsame]

theorem alias_pairTree :
    let source := Text.Utf8.encode "[a, 1]".toList
    let s : Step := ⟨some "Literal", [], [.place .lastChild]⟩
    let q : Query := ⟨⟨some "Identifier", [], [.pick .first]⟩, [(.adjacent, s)]⟩
    let ts := ["string", "number", "true", "false", "null", "regex"]
    let each : SelectorList := ⟨ts.map fun type => q.withStep (s.retyped type) 1⟩
    q.step? 1 = some s ∧ s.type = some "Literal" ∧ ESTree.types.lookup "Literal" = some ts ∧
    (∀ p, Pseudo.pick p ∉ s.pseudos) ∧
    query source pairTree ⟨[q]⟩ true = query source pairTree each true ∧
    query source pairTree ⟨[q]⟩ true = [⟨"number", none, ⟨⟨1, 4⟩, ⟨1, 5⟩⟩, some "1"⟩] := by
  intro source s q ts each
  have halias : ESTree.types.lookup "Literal" = some ts := by decide +kernel
  have hpick : ∀ p, Pseudo.pick p ∉ s.pseudos := by simp [s]
  obtain ⟨-, hsame⟩ :=
    select_alias_eq_types source pairTree true q 1 s "Literal" ts rfl rfl halias hpick
  exact ⟨rfl, rfl, halias, hpick, hsame, by decide +kernel⟩

end TreeSelect.Matching
