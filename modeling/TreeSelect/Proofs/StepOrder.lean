import TreeSelect.Proofs.QueryUnion

/-! A step works in two phases, however its predicates and pseudos are mixed. First each entry is
looked at by itself, and then the picks choose among the entries that passed, each from what the one
before it left. So only the order of the picks among themselves is of any account. -/
namespace TreeSelect.Selector

/-- The one of some entries that a pick points at, if there is one. -/
def Pick.of? {α : Type} (xs : List α) : Pick → Option α
  | .first => xs.head?
  | .last => xs.getLast?
  | .nth i => xs[i]?

/-- The picks that stand among some pseudos, in their order. -/
inductive PicksAmong : List Pseudo → List Pick → Prop
  | nil : PicksAmong [] []
  | pick (p : Pick) (pseudos : List Pseudo) (ps : List Pick) (h : PicksAmong pseudos ps) :
      PicksAmong (.pick p :: pseudos) (p :: ps)
  | place (place : Place) (pseudos : List Pseudo) (ps : List Pick) (h : PicksAmong pseudos ps) :
      PicksAmong (.place place :: pseudos) ps

end TreeSelect.Selector

namespace TreeSelect.Matching
open Selector TreeSelect.Tree

/-- What a step asks of an entry by itself, whatever other entries there are. -/
structure Passes (source : List UInt8) (s : Step) (e : Entry) : Prop where
  type : ∀ name, s.type = some name → e.node.type ∈ ESTree.nodeTypes name
  predicates : ∀ p ∈ s.predicates, satisfies source e p = true
  places : ∀ place, Pseudo.place place ∈ s.pseudos → standsAt e.site place = true

/-- What picks leave of some entries when they are made one after the other. -/
def pickInTurn {α : Type} (xs : List α) : List Pick → List α
  | [] => xs
  | p :: ps => pickInTurn (p.of? xs).toList ps

section Filter

theorem all_passes_iff (site : Site) (pseudos : List Pseudo) :
    pseudos.all (passes site) = true ↔
      ∀ place, Pseudo.place place ∈ pseudos → standsAt site place = true := by
  rw [List.all_eq_true]
  constructor
  · intro h place hplace
    exact h (.place place) hplace
  · intro h pseudo hpseudo
    cases pseudo with
    | pick p => rfl
    | place place => exact h place hpseudo

theorem admits_iff (source : List UInt8) (s : Step) (e : Entry) :
    admits source (s.type.map ESTree.nodeTypes) s e = true ↔ Passes source s e := by
  have htype : ofType (s.type.map ESTree.nodeTypes) e.node = true ↔
      ∀ name, s.type = some name → e.node.type ∈ ESTree.nodeTypes name := by
    cases s.type with
    | none => simp [ofType]
    | some name => simp [ofType]
  rw [admits, Bool.and_eq_true, Bool.and_eq_true, htype, List.all_eq_true, all_passes_iff]
  constructor
  · intro h
    obtain ⟨⟨ht, hp⟩, hplaces⟩ := h
    exact ⟨ht, hp, hplaces⟩
  · intro h
    exact ⟨⟨h.type, h.predicates⟩, h.places⟩

instance (source : List UInt8) (s : Step) (e : Entry) : Decidable (Passes source s e) :=
  decidable_of_iff _ (admits_iff source s e)

/-- The entries that pass a step, before any pick is made. -/
def passing (source : List UInt8) (entries : List Entry) (s : Step) : List Entry :=
  entries.filter fun e => Passes source s e

theorem mem_passing_iff (source : List UInt8) (entries : List Entry) (s : Step) (e : Entry) :
    e ∈ passing source entries s ↔ e ∈ entries ∧ Passes source s e := by
  rw [passing, List.mem_filter, decide_eq_true_eq]

theorem filter_admits (source : List UInt8) (entries : List Entry) (s : Step) :
    entries.filter (admits source (s.type.map ESTree.nodeTypes) s) = passing source entries s := by
  apply List.filter_congr
  intro e _
  apply Bool.eq_iff_iff.mpr
  rw [admits_iff, decide_eq_true_eq]

/-- Passing does not hang on the order in which a step asks, nor on its picks. -/
theorem passing_congr (source : List UInt8) (entries : List Entry) (s t : Step)
    (htype : t.type = s.type) (hpredicates : ∀ p, p ∈ t.predicates ↔ p ∈ s.predicates)
    (hplaces : ∀ place, Pseudo.place place ∈ t.pseudos ↔ Pseudo.place place ∈ s.pseudos) :
    passing source entries t = passing source entries s := by
  have hsame (e : Entry) : Passes source t e ↔ Passes source s e := by
    constructor
    · intro h
      refine ⟨htype ▸ h.type, ?_, ?_⟩
      · exact fun p hp => h.predicates p ((hpredicates p).mpr hp)
      · exact fun place hp => h.places place ((hplaces place).mpr hp)
    · intro h
      refine ⟨htype ▸ h.type, ?_, ?_⟩
      · exact fun p hp => h.predicates p ((hpredicates p).mp hp)
      · exact fun place hp => h.places place ((hplaces place).mp hp)
  apply List.filter_congr
  intro e _
  exact decide_eq_decide.mpr (hsame e)

end Filter

section Picks

theorem take_one_drop {α : Type} (xs : List α) (i : Nat) : (xs.drop i).take 1 = xs[i]?.toList := by
  rw [List.take_one, List.head?_drop]

theorem pickFrom_eq {α : Type} (xs : List α) (p : Pick) : pickFrom xs p = (p.of? xs).toList := by
  cases p with
  | first => exact List.take_one
  | last =>
    have hone : (xs.drop (xs.length - 1)).length ≤ 1 := by
      rw [List.length_drop]
      omega
    calc xs.drop (xs.length - 1)
        = (xs.drop (xs.length - 1)).take 1 := (List.take_of_length_le hone).symm
      _ = xs[xs.length - 1]?.toList := take_one_drop xs (xs.length - 1)
      _ = xs.getLast?.toList := by rw [List.getLast?_eq_getElem?]
  | nth i => exact take_one_drop xs i

theorem foldl_pickFrom_eq {α : Type} (ps : List Pick) (xs : List α) :
    ps.foldl pickFrom xs = pickInTurn xs ps := by
  induction ps generalizing xs with
  | nil => rfl
  | cons p ps ih => rw [List.foldl_cons, pickFrom_eq, ih, pickInTurn]

theorem pickInTurn_append {α : Type} (xs : List α) (before after : List Pick) :
    pickInTurn xs (before ++ after) = pickInTurn (pickInTurn xs before) after := by
  rw [← foldl_pickFrom_eq, ← foldl_pickFrom_eq, ← foldl_pickFrom_eq, List.foldl_append]

theorem pickInTurn_sublist {α : Type} (xs : List α) (ps : List Pick) :
    (pickInTurn xs ps).Sublist xs := by
  rw [← foldl_pickFrom_eq]
  exact foldl_pickFrom_sublist ps xs

/-- From the first pick on there is one entry at most. -/
theorem length_pickInTurn_le {α : Type} (xs : List α) (ps : List Pick) (h : ps ≠ []) :
    (pickInTurn xs ps).length ≤ 1 := by
  obtain ⟨p, ps, rfl⟩ := List.exists_cons_of_ne_nil h
  calc (pickInTurn xs (p :: ps)).length
      ≤ (p.of? xs).toList.length := (pickInTurn_sublist _ ps).length_le
    _ ≤ 1 := Option.length_toList_le

/-- A number past the end of what is left picks nothing, and nothing comes of the picks after it. -/
theorem pickInTurn_past_end {α : Type} (xs : List α) (before after : List Pick) (i : Nat)
    (h : (pickInTurn xs before).length ≤ i) : pickInTurn xs (before ++ .nth i :: after) = [] := by
  have hnone : (Pick.nth i).of? (pickInTurn xs before) = none := List.getElem?_eq_none h
  rw [pickInTurn_append, pickInTurn, hnone]
  exact List.sublist_nil.mp (pickInTurn_sublist [] after)

/-- A step makes the picks that stand among its pseudos. -/
theorem picks_eq_iff (s : Step) (ps : List Pick) : picks s = ps ↔ PicksAmong s.pseudos ps := by
  obtain ⟨type, predicates, pseudos⟩ := s
  constructor
  · rintro rfl
    induction pseudos with
    | nil => exact .nil
    | cons pseudo pseudos ih =>
      cases pseudo with
      | pick p => exact .pick p pseudos _ ih
      | place place => exact .place place pseudos _ ih
  · intro (h : PicksAmong pseudos ps)
    induction h with
    | nil => rfl
    | pick p pseudos ps _ ih => exact congrArg (p :: ·) ih
    | place place pseudos ps _ ih => exact ih

theorem mem_picksAmong_iff (pseudos : List Pseudo) (ps : List Pick) (h : PicksAmong pseudos ps)
    (p : Pick) : p ∈ ps ↔ Pseudo.pick p ∈ pseudos := by
  induction h with
  | nil => simp
  | pick q pseudos ps _ ih => simp [ih]
  | place place pseudos ps _ ih => simp [ih]

theorem picks_eq_nil (s : Step) (h : ∀ p, Pseudo.pick p ∉ s.pseudos) : picks s = [] := by
  have hpicks : PicksAmong s.pseudos (picks s) := (picks_eq_iff s _).mp rfl
  apply List.eq_nil_iff_forall_not_mem.mpr
  intro p hp
  exact h p ((mem_picksAmong_iff _ _ hpicks p).mp hp)

end Picks

theorem selectStep_eq (source : List UInt8) (entries : List Entry) (s : Step) :
    selectStep source entries s = pickInTurn (passing source entries s) (picks s) := by
  rw [selectStep, filter_admits, foldl_pickFrom_eq]

/-- A step that makes no pick selects all that pass. -/
theorem selectStep_of_no_pick (source : List UInt8) (entries : List Entry) (s : Step)
    (h : ∀ p, Pseudo.pick p ∉ s.pseudos) :
    selectStep source entries s = passing source entries s := by
  rw [selectStep_eq, picks_eq_nil s h, pickInTurn]

/-- Steps that ask the same in any order, and make the same picks in the same order, select the same.
What they select is what passes, in document order; picks leave one entry of it at most, each choosing
from what the one before it left, and none if a number is past the end. -/
theorem selectStep_in_phases (source : List UInt8) (root : Node) (s t : Step) (ps : List Pick)
    (htype : t.type = s.type) (hpredicates : ∀ p, p ∈ t.predicates ↔ p ∈ s.predicates)
    (hplaces : ∀ place, Pseudo.place place ∈ t.pseudos ↔ Pseudo.place place ∈ s.pseudos)
    (hs : PicksAmong s.pseudos ps) (ht : PicksAmong t.pseudos ps) :
    let passed := passing source root.index s
    let selected := selectStep source root.index s
    selectStep source root.index t = selected ∧
    selected.Sublist passed ∧ (selected.Pairwise fun a b => a.index < b.index) ∧
    ((∀ p, Pseudo.pick p ∉ s.pseudos) → selected = passed) ∧
    selected = pickInTurn passed ps ∧
    (∀ p, Pseudo.pick p ∈ s.pseudos → selected.length ≤ 1) ∧
    ∀ before i after, ps = before ++ .nth i :: after →
      (pickInTurn passed before).length ≤ i → selected = [] := by
  intro passed selected
  have hselected : selected = pickInTurn passed ps := by
    rw [← (picks_eq_iff s ps).mpr hs]
    exact selectStep_eq source root.index s
  refine ⟨?_, ?_, ?_, selectStep_of_no_pick source root.index s, hselected, ?_, ?_⟩
  · have hpassed := passing_congr source root.index s t htype hpredicates hplaces
    rw [hselected, selectStep_eq, hpassed, (picks_eq_iff t ps).mpr ht]
  · rw [hselected]
    exact pickInTurn_sublist passed ps
  · exact (pairwise_index root).sublist (selectStep_sublist source root.index s)
  · intro p hp
    rw [hselected]
    apply length_pickInTurn_le
    exact List.ne_nil_of_mem ((mem_picksAmong_iff _ _ hs p).mpr hp)
  · intro before i after hcut hle
    rw [hselected, hcut]
    exact pickInTurn_past_end passed before after i hle

/-- The tree of `[[a, 1], [b, 2], [c, 3]]`. -/
def nestedPairs : Node :=
  let pair (start : Nat) : Node :=
    ⟨plainLabel "array" start (start + 6), [
      ⟨plainLabel "identifier" (start + 1) (start + 2), []⟩,
      ⟨plainLabel "number" (start + 4) (start + 5), []⟩]⟩
  ⟨plainLabel "array" 0 24, [pair 1, pair 9, pair 17]⟩

/-- Of the four entries in the second place one is an array. Of the others the pick takes the second,
wherever it stands among the places; a pick of the second of that one takes nothing. -/
theorem phases_nestedPairs :
    let source := Text.Utf8.encode "[[a, 1], [b, 2], [c, 3]]".toList
    let hasText : Predicate := ⟨["text"], none⟩
    let noArray : Predicate := ⟨["type"], some (.different, "array")⟩
    let s : Step := ⟨none, [hasText, noArray], [.pick (.nth 1), .place (.nthChild 2), .pick .last]⟩
    let t : Step := ⟨none, [noArray, hasText], [.place (.nthChild 2), .pick (.nth 1), .pick .last]⟩
    let u : Step :=
      ⟨none, [hasText, noArray], [.pick (.nth 1), .place (.nthChild 2), .pick (.nth 1)]⟩
    t.type = s.type ∧ (∀ p, p ∈ t.predicates ↔ p ∈ s.predicates) ∧
    (∀ place, Pseudo.place place ∈ t.pseudos ↔ Pseudo.place place ∈ s.pseudos) ∧
    PicksAmong s.pseudos [.nth 1, .last] ∧ PicksAmong t.pseudos [.nth 1, .last] ∧
    (passing source nestedPairs.index s).map (fun e => e.index) = [3, 6, 9] ∧
    selectStep source nestedPairs.index t = selectStep source nestedPairs.index s ∧
    (selectStep source nestedPairs.index s).map (fun e => e.index) = [6] ∧
    selectStep source nestedPairs.index u = [] := by
  intro source hasText noArray s t u
  have hpredicates : ∀ p, p ∈ t.predicates ↔ p ∈ s.predicates := by simp [s, t, or_comm]
  have hplaces : ∀ place, Pseudo.place place ∈ t.pseudos ↔ Pseudo.place place ∈ s.pseudos := by
    simp [s, t]
  have hs : PicksAmong s.pseudos [.nth 1, .last] := .pick _ _ _ (.place _ _ _ (.pick _ _ _ .nil))
  have ht : PicksAmong t.pseudos [.nth 1, .last] := .place _ _ _ (.pick _ _ _ (.pick _ _ _ .nil))
  have hu : PicksAmong u.pseudos [.nth 1, .nth 1] := .pick _ _ _ (.place _ _ _ (.pick _ _ _ .nil))
  have hpassed : (passing source nestedPairs.index s).map (fun e => e.index) = [3, 6, 9] := by
    decide +kernel
  obtain ⟨hsame, -, -, -, hturn, -⟩ :=
    selectStep_in_phases source nestedPairs s t _ rfl hpredicates hplaces hs ht
  obtain ⟨-, -, -, -, -, -, hpast⟩ :=
    selectStep_in_phases source nestedPairs u u _ rfl (fun _ => Iff.rfl) (fun _ => Iff.rfl) hu hu
  refine ⟨rfl, hpredicates, hplaces, hs, ht, hpassed, hsame, ?_, ?_⟩
  · rw [hturn]
    decide +kernel
  · exact hpast [.nth 1] 1 [] rfl (length_pickInTurn_le _ _ (List.cons_ne_nil _ _))

end TreeSelect.Matching
