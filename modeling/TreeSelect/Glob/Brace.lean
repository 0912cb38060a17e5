import TreeSelect.Text.Cut

namespace TreeSelect.Glob

/-- The first group of a pattern: what stands before it, between its braces and after it. -/
structure Group where
  before : List Char
  body : List Char
  after : List Char

def Group.text (g : Group) : List Char :=
  g.before ++ '{' :: (g.body ++ '}' :: g.after)

/-- Splits at the brace that closes a group in which `depth` more are open. -/
def splitClose : Nat → List Char → Option (List Char × List Char)
  | _, [] => none
  | depth, '}' :: r =>
    match depth with
    | 0 => some ([], r)
    | depth + 1 => (splitClose depth r).map fun (body, after) => ('}' :: body, after)
  | depth, c :: r =>
    (splitClose (if c = '{' then depth + 1 else depth) r).map fun (body, after) =>
      (c :: body, after)

/-- The group that the first opening brace begins, if that brace is closed. -/
def firstGroup? : List Char → Option Group
  | [] => none
  | '{' :: r => (splitClose 0 r).map fun (body, after) => ⟨[], body, after⟩
  | c :: r => (firstGroup? r).map fun g => { g with before := c :: g.before }

/-- The parts between the commas that stand in no inner group. -/
def alternativesAt : Nat → List Char → List (List Char)
  | _, [] => [[]]
  | 0, ',' :: r => [] :: alternativesAt 0 r
  | depth, c :: r =>
    let next := if c = '{' then depth + 1 else if c = '}' then depth - 1 else depth
    Text.consFirst c (alternativesAt next r)

def alternatives (body : List Char) : List (List Char) :=
  alternativesAt 0 body

theorem splitClose_append {depth : Nat} {cs body after : List Char}
    (h : splitClose depth cs = some (body, after)) : body ++ '}' :: after = cs := by
  induction cs generalizing depth body after with
  | nil => simp [splitClose] at h
  | cons c r ih =>
    by_cases hc : c = '}'
    · subst hc
      cases depth with
      | zero =>
        simp only [splitClose, Option.some.injEq, Prod.mk.injEq] at h
        obtain ⟨rfl, rfl⟩ := h
        rfl
      | succ depth =>
        simp only [splitClose, Option.map_eq_some_iff, Prod.mk.injEq] at h
        obtain ⟨⟨b, a⟩, hb, rfl, rfl⟩ := h
        simp [ih hb]
    · simp only [splitClose, Option.map_eq_some_iff, Prod.mk.injEq] at h
      obtain ⟨⟨b, a⟩, hb, rfl, rfl⟩ := h
      simp [ih hb]

theorem text_of_firstGroup? {p : List Char} {g : Group} (h : firstGroup? p = some g) :
    g.text = p := by
  induction p generalizing g with
  | nil => simp [firstGroup?] at h
  | cons c r ih =>
    by_cases hc : c = '{'
    · subst hc
      simp only [firstGroup?, Option.map_eq_some_iff] at h
      obtain ⟨⟨body, after⟩, hb, rfl⟩ := h
      simp [Group.text, splitClose_append hb]
    · simp only [firstGroup?, Option.map_eq_some_iff] at h
      obtain ⟨g', hg, rfl⟩ := h
      simp only [Group.text, List.cons_append, List.cons.injEq, true_and]
      exact ih hg

theorem count_le_of_mem_consFirst {x c : Char} {n : Nat} {ls : List (List Char)}
    (h : ∀ l ∈ ls, l.count x ≤ n) :
    ∀ l ∈ Text.consFirst c ls, l.count x ≤ n + if c = x then 1 else 0 := by
  intro l hl
  cases ls with
  | nil =>
    simp only [Text.consFirst, List.mem_singleton] at hl
    subst hl
    by_cases hc : c = x <;> simp [hc]
  | cons m ls =>
    simp only [Text.consFirst, List.mem_cons] at hl
    rcases hl with rfl | hl
    · have := h m (by simp)
      by_cases hc : c = x <;> simp [hc] <;> omega
    · have := h l (by simp [hl])
      omega

theorem count_le_of_mem_alternativesAt {x : Char} {depth : Nat} {body alternative : List Char}
    (h : alternative ∈ alternativesAt depth body) : alternative.count x ≤ body.count x := by
  induction body generalizing depth alternative with
  | nil => simp_all [alternativesAt]
  | cons c r ih =>
    unfold alternativesAt at h
    split at h
    · simp at *
    · next hr =>
      obtain ⟨rfl, rfl⟩ := hr
      rcases List.mem_cons.1 h with rfl | h
      · simp
      · have := ih h
        rw [List.count_cons]; omega
    · next hr =>
      obtain ⟨rfl, rfl⟩ := hr
      have := count_le_of_mem_consFirst (x := x) (fun l hl => ih hl) _ h
      rw [List.count_cons]
      simpa [beq_iff_eq] using this

/-- The patterns that a pattern stands for, each once, in the order of their alternatives. A group
without a choice keeps its braces. -/
def expand (p : List Char) : List (List Char) :=
  match _h : firstGroup? p with
  | none => [p]
  | some g =>
    if (alternatives g.body).length < 2 then
      ((expand g.body).flatMap fun inner =>
        (expand g.after).map fun rest => g.before ++ '{' :: (inner ++ '}' :: rest)).eraseDups
    else
      ((alternatives g.body).attach.flatMap fun a =>
        expand (g.before ++ a.1 ++ g.after)).eraseDups
termination_by p.count '{'
decreasing_by
  all_goals
    have ht := congrArg (List.count '{') (text_of_firstGroup? _h)
    simp only [Group.text, List.count_append, List.count_cons] at ht
    simp at ht
  · omega
  · omega
  · have := count_le_of_mem_alternativesAt (x := '{') a.2
    simp only [List.count_append]
    omega

def expandBraces (pattern : String) : List String :=
  (expand pattern.toList).map String.ofList

end TreeSelect.Glob
