import Mathlib.Data.List.Forall2
import TreeSelect.Proofs.GlobDescent

namespace TreeSelect.Glob

/-- The blocks of names that a segment takes. -/
inductive Takes : String → List String → Prop
  | stars (block : List String) (h : ∀ n ∈ block, isHidden n = false) : Takes globstar block
  | one (segment name : String) (hs : segment ≠ globstar)
      (h : segmentMatches segment name = true) : Takes segment [name]

theorem takes_globstar_iff (block : List String) :
    Takes globstar block ↔ ∀ n ∈ block, isHidden n = false := by
  constructor
  · intro ht
    cases ht with
    | stars _ h => exact h
    | one _ _ hs _ => exact absurd rfl hs
  · exact Takes.stars block

theorem takes_segment_iff (segment : String) (block : List String) (hs : segment ≠ globstar) :
    Takes segment block ↔ ∃ name, block = [name] ∧ segmentMatches segment name = true := by
  constructor
  · intro ht
    cases ht with
    | stars _ _ => exact absurd rfl hs
    | one _ name _ h => exact ⟨name, rfl, h⟩
  · rintro ⟨name, rfl, h⟩
    exact Takes.one segment name hs h

/-- A segment that takes a hidden name begins with a dot. -/
theorem isHidden_of_takes (segment : String) (block : List String) (h : Takes segment block)
    (n : String) (hn : n ∈ block) (hh : isHidden n = true) : isHidden segment = true := by
  cases h with
  | stars _ h => exact absurd hh (by simp [h n hn])
  | one _ name _ h =>
    obtain rfl := List.mem_singleton.mp hn
    rw [segmentMatches, hh] at h
    simpa using (Bool.and_eq_true_iff.mp h).1

theorem matchParts_cons_iff (segment : String) (segments names : List String) :
    matchParts (segment :: segments) names = true ↔
      ∃ block rest, names = block ++ rest ∧ Takes segment block ∧
        matchParts segments rest = true := by
  by_cases hs : segment = globstar
  · subst hs
    rw [matchParts_globstar]
    simp only [takes_globstar_iff]
  · rw [matchParts_segment _ _ _ hs]
    simp only [takes_segment_iff _ _ hs]
    constructor
    · rintro ⟨name, rest, rfl, hn, hm⟩
      exact ⟨[name], rest, rfl, ⟨name, rfl, hn⟩, hm⟩
    · rintro ⟨_, rest, rfl, ⟨name, rfl, hn⟩, hm⟩
      exact ⟨name, rest, rfl, hn, hm⟩

theorem matchParts_iff_blocks (pattern names : List String) :
    matchParts pattern names = true ↔
      ∃ blocks, List.Forall₂ Takes pattern blocks ∧ names = blocks.flatten := by
  induction pattern generalizing names with
  | nil =>
    rw [matchParts, List.isEmpty_iff]
    constructor
    · rintro rfl
      exact ⟨[], List.Forall₂.nil, rfl⟩
    · rintro ⟨_, ⟨⟩, rfl⟩
      rfl
  | cons segment segments ih =>
    -- the first segment takes the first block, and the other segments cut the rest
    rw [matchParts_cons_iff]
    constructor
    · rintro ⟨block, rest, rfl, ht, hm⟩
      obtain ⟨blocks, hb, rfl⟩ := (ih rest).mp hm
      exact ⟨block :: blocks, List.Forall₂.cons ht hb, rfl⟩
    · rintro ⟨_, hb, rfl⟩
      cases hb with
      | cons ht hb => exact ⟨_, _, rfl, ht, (ih _).mpr ⟨_, hb, rfl⟩⟩

/-- A path matches a pattern exactly if its names can be cut into blocks that the segments take in
their order, and however they are cut, a hidden name falls to a segment that begins with a dot. -/
theorem matchParts_iff_cut (pattern names : List String) :
    (matchParts pattern names = true ↔
      ∃ blocks, List.Forall₂ Takes pattern blocks ∧ names = blocks.flatten) ∧
    ∀ blocks, List.Forall₂ Takes pattern blocks → names = blocks.flatten →
      List.Forall₂ (fun segment block => ∀ n ∈ block, isHidden n = true → isHidden segment = true)
        pattern blocks := by
  refine ⟨matchParts_iff_blocks pattern names, ?_⟩
  intro blocks hb _
  exact hb.imp isHidden_of_takes

/-- Stars on both sides of a hidden directory, and the directory itself is asked for with a dot. -/
theorem cut_hiddenDirectory :
    matchParts ["**", ".*", "**", "*.js"] ["a", ".git", "b", "c.js"] = true ∧
    List.Forall₂ Takes ["**", ".*", "**", "*.js"] [["a"], [".git"], ["b"], ["c.js"]] ∧
    List.Forall₂ (fun segment block => ∀ n ∈ block, isHidden n = true → isHidden segment = true)
      ["**", ".*", "**", "*.js"] [["a"], [".git"], ["b"], ["c.js"]] := by
  obtain ⟨hiff, hidden⟩ := matchParts_iff_cut ["**", ".*", "**", "*.js"] ["a", ".git", "b", "c.js"]
  have hcut : List.Forall₂ Takes ["**", ".*", "**", "*.js"] [["a"], [".git"], ["b"], ["c.js"]] := by
    refine .cons (.stars _ (by decide)) (.cons (.one _ _ (by decide) ?_)
      (.cons (.stars _ (by decide)) (.cons (.one _ _ (by decide) ?_) .nil)))
    · decide +kernel
    · decide +kernel
  exact ⟨hiff.mpr ⟨_, hcut, rfl⟩, hcut, hidden _ hcut rfl⟩

end TreeSelect.Glob
