import TreeSelect.Matching.Chain

namespace TreeSelect.Matching
open Selector TreeSelect.Tree

/-- A change of entries that selectors do not see. -/
structure Unseen (source : List UInt8) (f : Entry → Entry) : Prop where
  index : ∀ e, (f e).index = e.index
  site : ∀ e, (f e).site = e.site
  type : ∀ e, (f e).node.type = e.node.type
  value : ∀ e path, attributeValue source (f e) path = attributeValue source e path

theorem pickFrom_map {α β : Type} (f : α → β) (xs : List α) (p : Pick) :
    pickFrom (xs.map f) p = (pickFrom xs p).map f := by
  cases p with
  | first => rw [pickFrom, pickFrom, List.map_take]
  | last => rw [pickFrom, pickFrom, List.map_drop, List.length_map]
  | nth i => rw [pickFrom, pickFrom, List.map_take, List.map_drop]

theorem foldl_pickFrom_map {α β : Type} (f : α → β) (ps : List Pick) (xs : List α) :
    ps.foldl pickFrom (xs.map f) = (ps.foldl pickFrom xs).map f := by
  induction ps generalizing xs with
  | nil => rfl
  | cons p ps ih => rw [List.foldl_cons, List.foldl_cons, pickFrom_map, ih]

namespace Unseen
variable {source : List UInt8} {f : Entry → Entry}

theorem satisfies_eq (h : Unseen source f) (e : Entry) (p : Predicate) :
    satisfies source (f e) p = satisfies source e p := by
  rw [satisfies, satisfies, h.value]

theorem admits_eq (h : Unseen source f) (types : Option (List String)) (s : Step) (e : Entry) :
    admits source types s (f e) = admits source types s e := by
  have hp : satisfies source (f e) = satisfies source e := funext (h.satisfies_eq e)
  rw [admits, admits, ofType, ofType, h.type, h.site, hp]

theorem selectStep_map (h : Unseen source f) (entries : List Entry) (s : Step) :
    selectStep source (entries.map f) s = (selectStep source entries s).map f := by
  have ha : ∀ types, admits source types s ∘ f = admits source types s :=
    fun types => funext (h.admits_eq types s)
  rw [selectStep, selectStep, List.filter_map, ha, foldl_pickFrom_map]

theorem climb_map (h : Unseen source f) (entries : List Entry) (height : Nat) (i : Option Nat) :
    climb (entries.map f).toArray height i = climb entries.toArray height i := by
  induction height generalizing i with
  | zero => rfl
  | succ height ih =>
    cases i with
    | none => rfl
    | some i =>
      have hparent : ((entries.map f).toArray[i]?.bind fun e => e.site.parent) =
          entries.toArray[i]?.bind fun e => e.site.parent := by
        rw [List.getElem?_toArray, List.getElem?_toArray, List.getElem?_map, Option.bind_map]
        exact congrArg (Option.bind _) (funext fun e => congrArg Site.parent (h.site e))
      rw [climb, climb, hparent, ih]

theorem ancestors_map (h : Unseen source f) (entries : List Entry) (e : Entry) :
    ancestors (entries.map f).toArray (f e) = ancestors entries.toArray e := by
  rw [ancestors, ancestors, h.site, h.climb_map]

theorem firstPosition?_map (h : Unseen source f) (earlier : List Entry) (parent : Option Nat) :
    firstPosition? (earlier.map f) parent = firstPosition? earlier parent := by
  have hp : (fun p : Entry => p.site.parent == parent) ∘ f = fun p => p.site.parent == parent :=
    funext fun e => congrArg (·.parent == parent) (h.site e)
  have hm : (fun p : Entry => p.site.position) ∘ f = fun p => p.site.position :=
    funext fun e => congrArg Site.position (h.site e)
  rw [firstPosition?, firstPosition?, List.filter_map, hp, List.map_map, hm]

theorem numbers_map (h : Unseen source f) (entries : List Entry) :
    (entries.map f).map (fun e => e.index) = entries.map fun e => e.index := by
  rw [List.map_map]
  exact List.map_congr_left fun e _ => h.index e

/-- Tying two steps looks only at the numbers and the sites. -/
theorem tied_map (h : Unseen source f) (entries earlier later : List Entry) (c : Combinator) :
    tied (entries.map f).toArray c (earlier.map f) (later.map f) =
      (tied entries.toArray c earlier later).map f := by
  cases c with
  | child =>
    have hparents : (earlier.map f).map (fun p => some p.index) =
        earlier.map fun p => some p.index := by
      rw [List.map_map]
      exact List.map_congr_left fun e _ => congrArg some (h.index e)
    simp only [tied, List.filter_map, hparents, Function.comp_def, h.site]
  | descendant =>
    simp only [tied, List.filter_map, h.numbers_map, Function.comp_def, h.ancestors_map]
  | adjacent =>
    have hplaces : (earlier.map f).map (fun p => (p.site.parent, p.site.position + 1)) =
        earlier.map fun p => (p.site.parent, p.site.position + 1) := by
      rw [List.map_map]
      exact List.map_congr_left fun e _ => by rw [Function.comp_apply, h.site]
    simp only [tied, List.filter_map, hplaces, Function.comp_def, h.site]
  | sibling =>
    simp only [tied, List.filter_map, h.firstPosition?_map, Function.comp_def, h.site]

theorem foldl_tied_map (h : Unseen source f) (entries : List Entry)
    (rest : List (Combinator × Step)) (earlier : List Entry) :
    rest.foldl (fun earlier (c, s) => tied (entries.map f).toArray c earlier
        (selectStep source (entries.map f) s)) (earlier.map f) =
      (rest.foldl (fun earlier (c, s) => tied entries.toArray c earlier
        (selectStep source entries s)) earlier).map f := by
  induction rest generalizing earlier with
  | nil => rfl
  | cons cs rest ih =>
    obtain ⟨c, s⟩ := cs
    have hstep := h.tied_map entries earlier (selectStep source entries s) c
    rw [← h.selectStep_map] at hstep
    rw [List.foldl_cons, List.foldl_cons, ← ih, ← hstep]

theorem selectQuery_map (h : Unseen source f) (entries : List Entry) (q : Query) :
    selectQuery source (entries.map f) q = (selectQuery source entries q).map f := by
  rw [selectQuery, h.selectStep_map, h.foldl_tied_map, selectQuery]

/-- A selector selects the changed entries of those that it selects without the change. -/
theorem select_map (h : Unseen source f) (entries : List Entry) (l : SelectorList) :
    select source (entries.map f) l = (select source entries l).map f := by
  have hnumbers : ∀ q, (selectQuery source (entries.map f) q).map (fun e => e.index) =
      (selectQuery source entries q).map fun e => e.index := by
    intro q
    rw [h.selectQuery_map, h.numbers_map]
  rw [select, select]
  split
  next q _ => exact h.selectQuery_map entries q
  next => simp only [hnumbers, List.filter_map, Function.comp_def, h.index]

end Unseen
end TreeSelect.Matching
