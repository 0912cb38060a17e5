import TreeSelect.Path

namespace TreeSelect

/-- What an entry of a directory may be called. -/
def IsName (name : String) : Prop :=
  name ≠ "" ∧ name ≠ "." ∧ name ≠ ".." ∧ '/' ∉ name.toList

instance (name : String) : Decidable (IsName name) :=
  inferInstanceAs (Decidable (_ ∧ _ ∧ _ ∧ _))

theorem split_eq_splitOn (separator : Char) (cs : List Char) :
    Text.split separator cs = cs.splitOn separator := by
  induction cs with
  | nil => rfl
  | cons c cs ih =>
    rw [Text.split, List.splitOn_cons_eq_if_modifyHead, ih]
    simp only [beq_iff_eq]
    split
    · rfl
    · cases hs : cs.splitOn separator with
      | nil => exact absurd hs (List.splitOn_ne_nil _ _)
      | cons l ls => rfl

theorem not_mem_of_mem_split (separator : Char) (cs l : List Char)
    (hl : l ∈ Text.split separator cs) : separator ∉ l := by
  induction cs generalizing l with
  | nil => simp_all [Text.split]
  | cons c cs ih =>
    rw [Text.split] at hl
    split at hl
    · rcases List.mem_cons.mp hl with rfl | hl
      · exact List.not_mem_nil
      · exact ih l hl
    · next hc =>
      cases hs : Text.split separator cs with
      | nil =>
        rw [hs, Text.consFirst, List.mem_singleton] at hl
        subst hl
        simpa using Ne.symm hc
      | cons m ls =>
        rw [hs, Text.consFirst, List.mem_cons] at hl
        rcases hl with rfl | hl
        · have hm := ih m (by simp [hs])
          simp [hm, Ne.symm hc]
        · exact ih l (by simp [hs, hl])

namespace Path

theorem text_of_names (names : List String) (hne : names ≠ []) :
    text ⟨"", names⟩ = String.intercalate "/" names := by
  have hparts : parts ⟨"", names⟩ = names := rfl
  rw [text, hparts, if_neg hne]
  exact String.empty_append

theorem rootOf_intercalate (name : List Char) (names : List (List Char))
    (hne : name ≠ []) (hs : '/' ∉ name) :
    rootOf (['/'].intercalate (name :: names)) = "" := by
  obtain ⟨c, cs, rfl⟩ := List.exists_cons_of_ne_nil hne
  have hc : c ≠ '/' := fun h => hs (by simp [h])
  cases names with
  | nil =>
    rw [List.intercalate_singleton]
    unfold rootOf
    split <;> simp_all
  | cons later names =>
    rw [List.intercalate_cons_cons]
    unfold rootOf
    split <;> simp_all

/-- Reading the text of a path of names gives the names again. -/
theorem ofString_text (names : List String) (hne : names ≠ []) (hn : ∀ n ∈ names, IsName n) :
    ofString (text ⟨"", names⟩) = ⟨"", names⟩ := by
  have hchars : ((String.intercalate "/" names).toList) =
      ['/'].intercalate (names.map String.toList) := String.toList_intercalate
  have hsplit : Text.split '/' (['/'].intercalate (names.map String.toList)) =
      names.map String.toList := by
    rw [split_eq_splitOn]
    apply List.splitOn_intercalate
    · intro l hl
      obtain ⟨n, hm, rfl⟩ := List.mem_map.mp hl
      exact (hn n hm).2.2.2
    · simpa using hne
  have hkept : (names.map String.toList).filter (fun p => p ≠ [] ∧ p ≠ ['.']) =
      names.map String.toList := by
    apply List.filter_eq_self.mpr
    intro l hl
    obtain ⟨n, hm, rfl⟩ := List.mem_map.mp hl
    obtain ⟨h0, h1, _, _⟩ := hn n hm
    have hdot : n.toList ≠ ['.'] := fun h => h1 (String.toList_inj.mp h)
    simpa using ⟨h0, hdot⟩
  have hroot : rootOf (['/'].intercalate (names.map String.toList)) = "" := by
    obtain ⟨n, ns, rfl⟩ := List.exists_cons_of_ne_nil hne
    obtain ⟨h0, _, _, hs⟩ := hn n (by simp)
    exact rootOf_intercalate _ _ (by simpa using h0) hs
  rw [text_of_names names hne, ofString, hchars, hsplit, hkept, hroot]
  simp

theorem text_injective (names names' : List String) (hne : names ≠ []) (hne' : names' ≠ [])
    (hn : ∀ n ∈ names, IsName n) (hn' : ∀ n ∈ names', IsName n)
    (h : text ⟨"", names⟩ = text ⟨"", names'⟩) : names = names' := by
  have hread := congrArg ofString h
  rw [ofString_text names hne hn, ofString_text names' hne' hn'] at hread
  exact congrArg Path.names hread

/-- The names that are read off a text could all be names of entries, but for double dots. -/
theorem names_ofString (s : String) :
    ∀ n ∈ (ofString s).names, n ≠ "" ∧ n ≠ "." ∧ '/' ∉ n.toList := by
  intro n hn
  simp only [ofString, List.mem_map, List.mem_filter, decide_eq_true_eq] at hn
  obtain ⟨l, ⟨hl, h0, h1⟩, rfl⟩ := hn
  refine ⟨?_, ?_, ?_⟩
  · intro h
    exact h0 (by simpa using congrArg String.toList h)
  · intro h
    exact h1 (by simpa using congrArg String.toList h)
  · rw [String.toList_ofList]
    exact not_mem_of_mem_split '/' s.toList l hl

end Path
end TreeSelect
