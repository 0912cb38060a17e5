import Mathlib.Data.List.Nodup

namespace TreeSelect

section
variable {α : Type} [BEq α] [LawfulBEq α]

theorem filter_eraseDups (p : α → Bool) (xs : List α) :
    (xs.filter p).eraseDups = xs.eraseDups.filter p := by
  induction h : xs.length using Nat.strongRecOn generalizing xs with
  | ind n ih =>
    cases xs with
    | nil => rfl
    | cons x xs =>
      have hlt : (xs.filter fun y => !y == x).length < n := by
        rw [← h]
        exact Nat.lt_succ_of_le (List.length_filter_le _ xs)
      have hrest := ih _ hlt (xs.filter fun y => !y == x) rfl
      rw [List.eraseDups_cons]
      by_cases hx : p x = true
      · rw [List.filter_cons_of_pos hx, List.filter_cons_of_pos hx, List.eraseDups_cons, ← hrest,
          List.filter_comm]
      · rw [List.filter_cons_of_neg hx, List.filter_cons_of_neg hx, ← hrest, List.filter_filter]
        -- no entry that `p` admits is the first one
        refine congrArg List.eraseDups (List.filter_congr fun y _ => ?_)
        by_cases hy : y = x <;> simp_all

theorem nodup_eraseDups (xs : List α) : xs.eraseDups.Nodup := by
  induction xs with
  | nil => exact List.nodup_nil
  | cons x xs ih =>
    rw [List.eraseDups_cons, filter_eraseDups]
    refine List.nodup_cons.mpr ⟨?_, ih.filter _⟩
    simp

theorem eraseDups_eq_self (xs : List α) (h : xs.Nodup) : xs.eraseDups = xs := by
  induction xs with
  | nil => rfl
  | cons x xs ih =>
    obtain ⟨hx, hn⟩ := List.nodup_cons.mp h
    rw [List.eraseDups_cons, filter_eraseDups, ih hn]
    refine congrArg (x :: ·) (List.filter_eq_self.mpr fun y hy => ?_)
    have hne : y ≠ x := fun he => hx (he ▸ hy)
    simpa using hne

theorem eraseDups_append_congr (xs xs' ys ys' : List α) (hx : xs.eraseDups = xs'.eraseDups)
    (hy : ys.eraseDups = ys'.eraseDups) : (xs ++ ys).eraseDups = (xs' ++ ys').eraseDups := by
  have hmem (y : α) : y ∈ xs ↔ y ∈ xs' := by
    rw [← List.mem_eraseDups, hx, List.mem_eraseDups]
  rw [List.eraseDups_append, List.eraseDups_append, hx]
  simp only [List.removeAll, filter_eraseDups, hy, List.elem_eq_mem, hmem]

theorem eraseDups_flatMap_congr {β : Type} (f g : β → List α) (xs : List β)
    (h : ∀ x ∈ xs, (f x).eraseDups = (g x).eraseDups) :
    (xs.flatMap f).eraseDups = (xs.flatMap g).eraseDups := by
  induction xs with
  | nil => rfl
  | cons x xs ih =>
    rw [List.flatMap_cons, List.flatMap_cons]
    exact eraseDups_append_congr _ _ _ _ (h x List.mem_cons_self)
      (ih fun y hy => h y (List.mem_cons_of_mem x hy))

end

section
variable {α β : Type} [BEq α] [LawfulBEq α] [BEq β] [LawfulBEq β]

/-- What an entry gives is there from its first place on, so its other places give nothing new. -/
theorem removeAll_flatMap_filter_ne (f : α → List β) (x : α) (xs : List α) :
    ((xs.filter fun y => !y == x).flatMap f).removeAll (f x) =
      (xs.flatMap f).removeAll (f x) := by
  rw [List.removeAll, List.removeAll, List.filter_flatMap, List.filter_flatMap]
  induction xs with
  | nil => rfl
  | cons y xs ih =>
    by_cases hy : y = x
    · subst hy
      have hnone : (f y).filter (fun b => !List.elem b (f y)) = [] := by
        simp
      rw [List.filter_cons_of_neg (by simp), ih, List.flatMap_cons, hnone, List.nil_append]
    · rw [List.filter_cons_of_pos (by simpa using hy), List.flatMap_cons, List.flatMap_cons, ih]

theorem eraseDups_eraseDups_flatMap (f : α → List β) (xs : List α) :
    (xs.eraseDups.flatMap f).eraseDups = (xs.flatMap f).eraseDups := by
  induction xs with
  | nil => rfl
  | cons x xs ih =>
    rw [List.eraseDups_cons, filter_eraseDups, List.flatMap_cons, List.flatMap_cons,
      List.eraseDups_append, List.eraseDups_append, removeAll_flatMap_filter_ne, List.removeAll,
      List.removeAll, filter_eraseDups, filter_eraseDups, ih]

theorem eraseDups_map (f : α → β) (xs : List α) (hf : Function.Injective f) :
    (xs.map f).eraseDups = xs.eraseDups.map f := by
  induction xs with
  | nil => rfl
  | cons x xs ih =>
    rw [List.map_cons, List.eraseDups_cons, filter_eraseDups, ih, List.eraseDups_cons,
      filter_eraseDups, List.map_cons, List.filter_map]
    refine congrArg (fun ys => f x :: ys.map f) (List.filter_congr fun y _ => ?_)
    -- two entries differ exactly if what they are mapped to differs
    simp [Function.comp_apply, hf.eq_iff]

/-- All pairs of entries of two lists, put together by some rule. -/
theorem eraseDups_pairs {γ : Type} [BEq γ] [LawfulBEq γ] (f : α → β → γ) (xs : List α) (ys : List β) :
    (xs.eraseDups.flatMap fun x => ys.eraseDups.map (f x)).eraseDups =
      (xs.flatMap fun x => ys.map (f x)).eraseDups := by
  calc (xs.eraseDups.flatMap fun x => ys.eraseDups.map (f x)).eraseDups
      = (xs.flatMap fun x => ys.eraseDups.map (f x)).eraseDups := eraseDups_eraseDups_flatMap _ xs
    _ = (xs.flatMap fun x => ys.map (f x)).eraseDups := by
        refine eraseDups_flatMap_congr _ _ xs fun x _ => ?_
        rw [List.map_eq_flatMap, List.map_eq_flatMap, eraseDups_eraseDups_flatMap]

end

end TreeSelect
