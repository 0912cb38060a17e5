import TreeSelect.Glob.Segments
import TreeSelect.Proofs.PathText

namespace TreeSelect.Glob

/-- Two stars take a run of names that are not hidden and leave the rest. -/
theorem mem_leftovers_iff (names rest : List String) :
    rest ∈ leftovers names ↔
      ∃ taken, names = taken ++ rest ∧ ∀ n ∈ taken, isHidden n = false := by
  induction names with
  | nil =>
    rw [leftovers, List.mem_singleton]
    constructor
    · rintro rfl
      exact ⟨[], rfl, by simp⟩
    · rintro ⟨taken, he, _⟩
      exact (List.append_eq_nil_iff.mp he.symm).2
  | cons name names ih =>
    rw [leftovers, List.mem_cons]
    constructor
    · rintro (rfl | hr)
      · exact ⟨[], rfl, by simp⟩
      · split at hr
        · exact absurd hr List.not_mem_nil
        · next hh =>
          obtain ⟨taken, rfl, ht⟩ := ih.mp hr
          exact ⟨name :: taken, rfl, by simpa using ⟨by simpa using hh, ht⟩⟩
    · rintro ⟨taken, he, ht⟩
      cases taken with
      | nil => exact Or.inl he.symm
      | cons t taken =>
        obtain ⟨rfl, rfl⟩ := List.cons.inj he
        rw [if_neg (by simp [ht name (by simp)])]
        exact Or.inr (ih.mpr ⟨taken, rfl, fun n hn => ht n (by simp [hn])⟩)

theorem matchParts_globstar (segments names : List String) :
    matchParts (globstar :: segments) names = true ↔
      ∃ taken rest, names = taken ++ rest ∧ (∀ n ∈ taken, isHidden n = false) ∧
        matchParts segments rest = true := by
  simp only [matchParts, ↓reduceIte, List.any_eq_true, mem_leftovers_iff]
  constructor
  · rintro ⟨rest, ⟨taken, he, ht⟩, hm⟩
    exact ⟨taken, rest, he, ht, hm⟩
  · rintro ⟨taken, rest, he, ht, hm⟩
    exact ⟨rest, ⟨taken, he, ht⟩, hm⟩

theorem matchParts_segment (segment : String) (segments names : List String)
    (hs : segment ≠ globstar) :
    matchParts (segment :: segments) names = true ↔
      ∃ name rest, names = name :: rest ∧ segmentMatches segment name = true ∧
        matchParts segments rest = true := by
  cases names with
  | nil => simp [matchParts, hs]
  | cons name names =>
    simp only [matchParts, hs, ↓reduceIte, Bool.and_eq_true, List.cons.injEq]
    constructor
    · rintro ⟨hn, hm⟩
      exact ⟨name, names, ⟨rfl, rfl⟩, hn, hm⟩
    · rintro ⟨_, _, ⟨rfl, rfl⟩, hn, hm⟩
      exact ⟨hn, hm⟩

theorem itemsOf_of_not_wild (cs : List Char)
    (h : ∀ c ∈ cs, c ≠ '*' ∧ c ≠ '?' ∧ c ≠ '[') : itemsOf cs = cs.map Item.char := by
  induction cs with
  | nil => rw [itemsOf, List.map_nil]
  | cons c cs ih =>
    obtain ⟨h1, h2, h3⟩ := h c (by simp)
    rw [itemsOf, ih fun d hd => h d (by simp [hd]), List.map_cons] <;> simp_all

theorem matchesItems_map_char (text cs : List Char) :
    matchesItems (text.map Item.char) cs = true ↔ cs = text := by
  induction text generalizing cs with
  | nil => simp [matchesItems]
  | cons t text ih =>
    cases cs with
    | nil => simp [matchesItems]
    | cons c cs => simp [matchesItems, Item.takes, ih]

/-- A segment without wildcards takes its own name and no other. -/
theorem segmentMatches_of_not_wild (segment name : String) (h : isWild segment = false) :
    segmentMatches segment name = true ↔ name = segment := by
  have hc : ∀ c ∈ segment.toList, c ≠ '*' ∧ c ≠ '?' ∧ c ≠ '[' := by
    simpa [isWild, and_assoc] using h
  rw [segmentMatches, wildcard_eq, itemsOf_of_not_wild _ hc, Bool.and_eq_true,
    matchesItems_map_char, String.toList_inj]
  constructor
  · exact fun hm => hm.2
  · rintro rfl
    exact ⟨by simp, rfl⟩

theorem matchParts_fixed (fixed segments names : List String)
    (hf : ∀ s ∈ fixed, isWild s = false) :
    matchParts (fixed ++ segments) names = true ↔
      ∃ rest, names = fixed ++ rest ∧ matchParts segments rest = true := by
  induction fixed generalizing names with
  | nil => simp
  | cons s fixed ih =>
    have hw : isWild s = false := hf s (by simp)
    have hs : s ≠ globstar := by
      rintro rfl
      exact absurd hw (by decide)
    rw [List.cons_append, matchParts_segment _ _ _ hs]
    simp only [segmentMatches_of_not_wild s _ hw, ih _ fun t ht => hf t (by simp [ht])]
    constructor
    · rintro ⟨_, _, rfl, rfl, rest, rfl, hm⟩
      exact ⟨rest, rfl, hm⟩
    · rintro ⟨rest, rfl, hm⟩
      exact ⟨s, fixed ++ rest, rfl, rfl, rest, rfl, hm⟩

/-- Descent never passes over a directory that has a match below it. -/
theorem canDescend_of_matchParts (pattern directory below : List String) (hb : below ≠ [])
    (hm : matchParts pattern (directory ++ below) = true) : canDescend pattern directory = true := by
  induction pattern generalizing directory with
  | nil =>
    have hnil : directory ++ below = [] := by simpa [matchParts] using hm
    exact absurd (List.append_eq_nil_iff.mp hnil).2 hb
  | cons segment segments ih =>
    by_cases hs : segment = globstar
    · subst hs
      obtain ⟨taken, rest, he, ht, hm⟩ := (matchParts_globstar _ _).mp hm
      simp only [canDescend, ↓reduceIte, List.any_eq_true, mem_leftovers_iff]
      -- The two stars end inside the directory, or they take all of it.
      rcases List.append_eq_append_iff.mp he with ⟨more, rfl, rfl⟩ | ⟨left, rfl, rfl⟩
      · exact ⟨[], ⟨directory, by simp, fun n hn => ht n (by simp [hn])⟩, rfl⟩
      · exact ⟨left, ⟨taken, rfl, ht⟩, by simp [ih left hm]⟩
    · obtain ⟨name, rest, he, hn, hm⟩ := (matchParts_segment _ _ _ hs).mp hm
      cases directory with
      | nil => simp [canDescend, hs]
      | cons d directory =>
        obtain ⟨rfl, rfl⟩ := List.cons.inj he
        simp [canDescend, hs, hn, ih directory hm]

/-- The parts of a relative pattern are the fixed ones, which name a directory, and the segments. -/
theorem splitBase_of_relative (pattern : String)
    (hrel : (Path.ofString pattern).isAbsolute = false) :
    ∃ fixed segments, splitBase pattern = (⟨"", fixed⟩, segments) ∧
      (Path.ofString pattern).parts = fixed ++ segments ∧
      (Path.ofString pattern).names = fixed ++ segments ∧
      ∀ s ∈ fixed, isWild s = false := by
  let parts := (Path.ofString pattern).parts
  have hparts : (Path.ofString pattern).parts = (Path.ofString pattern).names := by
    rw [Path.parts, hrel]
    rfl
  let size := if (parts.takeWhile fun p => !isWild p).length = parts.length
    then parts.length - 1 else (parts.takeWhile fun p => !isWild p).length
  have hsize : size ≤ (parts.takeWhile fun p => !isWild p).length := by
    dsimp only [size]
    split <;> omega
  have hfixed : ∀ s ∈ parts.take size, isWild s = false := by
    intro s hs
    have hpre : parts.take size <+: parts.takeWhile fun p => !isWild p :=
      List.prefix_of_prefix_length_le (List.take_prefix _ _) (List.takeWhile_prefix _)
        (Nat.le_trans (List.length_take_le _ _) hsize)
    have hp := List.all_eq_true.mp List.all_takeWhile s (hpre.subset hs)
    simpa using hp
  have hbase : Path.ofParts (parts.take size) = ⟨"", parts.take size⟩ := by
    cases hp : parts.take size with
    | nil => rfl
    | cons p ps =>
      have hm : p ∈ (Path.ofString pattern).names := by
        rw [← hparts]
        exact List.mem_of_mem_take (by rw [hp]; exact List.mem_cons_self)
      have hslash : p.toList.head? ≠ some '/' := fun h =>
        (Path.names_ofString pattern p hm).2.2 (List.mem_of_mem_head? h)
      rw [Path.ofParts, if_neg hslash]
  refine ⟨parts.take size, parts.drop size, ?_, ?_, ?_, hfixed⟩
  · exact Prod.ext hbase rfl
  · exact (List.take_append_drop size parts).symm
  · rw [← hparts]
    exact (List.take_append_drop size parts).symm

end TreeSelect.Glob
