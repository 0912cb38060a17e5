import Mathlib.Data.List.Infix
import TreeSelect.Glob.Brace

namespace TreeSelect.Glob

/-- As many braces are closed as opened, and none before it is opened. -/
def IsBalanced (body : List Char) : Prop :=
  body.count '}' = body.count '{' ∧ ∀ front, front <+: body → front.count '}' ≤ front.count '{'

/-- Every opening brace has a brace that closes it. -/
def EachClosed (p : List Char) : Prop :=
  ∀ before rest, p = before ++ '{' :: rest →
    ∃ body after, rest = body ++ '}' :: after ∧ IsBalanced body

/-- Behind `depth` open braces, all of them and all that are opened here are closed, and none before
it is opened. -/
def Closes (depth : Nat) (cs : List Char) : Prop :=
  cs.count '}' = cs.count '{' + depth ∧
    ∀ front, front <+: cs → front.count '}' ≤ front.count '{' + depth

theorem closes_zero_iff (cs : List Char) : Closes 0 cs ↔ IsBalanced cs :=
  Iff.rfl

theorem closes_nil_iff (depth : Nat) : Closes depth [] ↔ depth = 0 := by
  simp [Closes, eq_comm]

theorem forall_prefix_cons {motive : List Char → Prop} (c : Char) (cs : List Char) :
    (∀ front, front <+: c :: cs → motive front) ↔
      motive [] ∧ ∀ front, front <+: cs → motive (c :: front) := by
  constructor
  · exact fun h => ⟨h [] List.nil_prefix, fun front hf => h _ (List.cons_prefix_cons.mpr ⟨rfl, hf⟩)⟩
  · rintro ⟨hnil, hcons⟩ front hf
    rcases List.prefix_cons_iff.mp hf with rfl | ⟨rest, rfl, hr⟩
    · exact hnil
    · exact hcons rest hr

theorem closes_open_iff (depth : Nat) (cs : List Char) :
    Closes depth ('{' :: cs) ↔ Closes (depth + 1) cs := by
  simp only [Closes, forall_prefix_cons, List.count_cons_self, List.count_nil,
    List.count_cons_of_ne (show '{' ≠ '}' by decide)]
  constructor
  · rintro ⟨hall, -, hfront⟩
    exact ⟨by omega, fun front hf => by have := hfront front hf; omega⟩
  · rintro ⟨hall, hfront⟩
    exact ⟨by omega, Nat.zero_le _, fun front hf => by have := hfront front hf; omega⟩

theorem closes_close_iff (depth : Nat) (cs : List Char) :
    Closes depth ('}' :: cs) ↔ ∃ d, depth = d + 1 ∧ Closes d cs := by
  simp only [Closes, forall_prefix_cons, List.count_cons_self, List.count_nil,
    List.count_cons_of_ne (show '}' ≠ '{' by decide)]
  constructor
  · rintro ⟨hall, -, hfront⟩
    -- the closing brace itself is a beginning, so some brace is open before it
    have hone := hfront [] List.nil_prefix
    rw [List.count_nil, List.count_nil] at hone
    exact ⟨depth - 1, by omega, by omega, fun front hf => by have := hfront front hf; omega⟩
  · rintro ⟨d, rfl, hall, hfront⟩
    exact ⟨by omega, Nat.zero_le _, fun front hf => by have := hfront front hf; omega⟩

theorem closes_plain_iff (depth : Nat) (c : Char) (cs : List Char) (ho : c ≠ '{') (hc : c ≠ '}') :
    Closes depth (c :: cs) ↔ Closes depth cs := by
  simp only [Closes, forall_prefix_cons, List.count_cons_of_ne ho, List.count_cons_of_ne hc,
    List.count_nil, Nat.zero_le, true_and]

/-- A text that closes `depth` braces leaves to the text behind it those that are open before. -/
theorem closes_append_iff (depth more : Nat) (xs ys : List Char) (hx : Closes depth xs) :
    Closes (depth + more) (xs ++ ys) ↔ Closes more ys := by
  induction xs generalizing depth with
  | nil => rw [(closes_nil_iff depth).mp hx, Nat.zero_add, List.nil_append]
  | cons c xs ih =>
    rw [List.cons_append]
    by_cases ho : c = '{'
    · subst ho
      rw [closes_open_iff, Nat.add_right_comm]
      exact ih (depth + 1) ((closes_open_iff depth xs).mp hx)
    · by_cases hc : c = '}'
      · subst hc
        obtain ⟨d, rfl, hd⟩ := (closes_close_iff depth xs).mp hx
        rw [closes_close_iff, ← ih d hd]
        constructor
        · rintro ⟨e, he, h⟩
          obtain rfl : d + more = e := by omega
          exact h
        · exact fun h => ⟨d + more, by omega, h⟩
      · rw [closes_plain_iff _ c _ ho hc]
        exact ih depth ((closes_plain_iff depth c xs ho hc).mp hx)

theorem isBalanced_append (xs ys : List Char) (hx : IsBalanced xs) (hy : IsBalanced ys) :
    IsBalanced (xs ++ ys) :=
  (closes_append_iff 0 0 xs ys hx).mpr hy

/-- The scan stops at the brace that closes the open ones. -/
theorem splitClose_eq_some_iff (depth : Nat) (cs body after : List Char) :
    splitClose depth cs = some (body, after) ↔ cs = body ++ '}' :: after ∧ Closes depth body := by
  -- along the text, with the braces that are open in front of it
  induction cs generalizing depth body after with
  | nil => simp [splitClose]
  | cons c cs ih =>
    by_cases hc : c = '}'
    · subst hc
      cases depth with
      | zero =>
        rw [splitClose, Option.some.injEq, Prod.mk.injEq]
        constructor
        · rintro ⟨rfl, rfl⟩
          exact ⟨rfl, (closes_nil_iff 0).mpr rfl⟩
        · rintro ⟨he, hb⟩
          cases body with
          | nil => exact ⟨rfl, (List.cons.inj he).2⟩
          | cons d body =>
            -- no balanced text begins with a closing brace
            obtain ⟨rfl, -⟩ := List.cons.inj he
            obtain ⟨_, hd, -⟩ := (closes_close_iff 0 body).mp hb
            omega
      | succ depth =>
        simp only [splitClose, Option.map_eq_some_iff, Prod.mk.injEq, Prod.exists, ih]
        constructor
        · rintro ⟨b, a, ⟨rfl, hb⟩, rfl, rfl⟩
          exact ⟨rfl, (closes_close_iff _ b).mpr ⟨depth, rfl, hb⟩⟩
        · rintro ⟨he, hb⟩
          cases body with
          | nil => exact absurd ((closes_nil_iff _).mp hb) (Nat.succ_ne_zero depth)
          | cons d body =>
            obtain ⟨rfl, rfl⟩ := List.cons.inj he
            obtain ⟨e, he, hb⟩ := (closes_close_iff _ body).mp hb
            obtain rfl : depth = e := by omega
            exact ⟨body, after, ⟨rfl, hb⟩, rfl, rfl⟩
    · -- any other character stays in the body, and an opening brace is one more to close
      have hstep (d : Nat) (b : List Char) : Closes d (c :: b) ↔
          Closes (if c = '{' then d + 1 else d) b := by
        split
        · next ho => rw [ho, closes_open_iff]
        · next ho => rw [closes_plain_iff d c b ho hc]
      simp only [splitClose, Option.map_eq_some_iff, Prod.mk.injEq, Prod.exists, ih]
      constructor
      · rintro ⟨b, a, ⟨rfl, hb⟩, rfl, rfl⟩
        exact ⟨rfl, (hstep depth b).mpr hb⟩
      · rintro ⟨he, hb⟩
        cases body with
        | nil => exact absurd (List.cons.inj he).1 hc
        | cons d body =>
          obtain ⟨rfl, rfl⟩ := List.cons.inj he
          exact ⟨body, after, ⟨rfl, (hstep depth body).mp hb⟩, rfl, rfl⟩

/-- The first group of a pattern begins at its first opening brace, if that is closed. -/
theorem firstGroup?_eq_some (before body after : List Char) (ho : '{' ∉ before)
    (hb : IsBalanced body) :
    firstGroup? (before ++ '{' :: (body ++ '}' :: after)) = some ⟨before, body, after⟩ := by
  induction before with
  | nil =>
    have hs := (splitClose_eq_some_iff 0 _ body after).mpr ⟨rfl, hb⟩
    rw [List.nil_append, firstGroup?, hs, Option.map_some]
  | cons c before ih =>
    obtain ⟨hc, ho⟩ := not_or.mp (mt List.mem_cons.mpr ho)
    rw [List.cons_append, firstGroup?, ih ho, Option.map_some]
    exact fun h => hc h.symm

theorem firstGroup?_eq_none (p : List Char) (ho : '{' ∉ p) : firstGroup? p = none := by
  induction p with
  | nil => rfl
  | cons c p ih =>
    obtain ⟨hc, ho⟩ := not_or.mp (mt List.mem_cons.mpr ho)
    rw [firstGroup?, ih ho, Option.map_none]
    exact fun h => hc h.symm

/-- A text with more closing braces than are open in front of it and in it closes one brace more. -/
theorem exists_close_of_count (depth : Nat) (cs : List Char)
    (h : cs.count '{' + depth < cs.count '}') :
    ∃ body after, cs = body ++ '}' :: after ∧ Closes depth body := by
  induction cs generalizing depth with
  | nil => exact absurd h (Nat.not_lt_zero _)
  | cons c cs ih =>
    by_cases ho : c = '{'
    · subst ho
      rw [List.count_cons_self, List.count_cons_of_ne (by decide)] at h
      obtain ⟨body, after, rfl, hb⟩ := ih (depth + 1) (by omega)
      exact ⟨'{' :: body, after, rfl, (closes_open_iff depth body).mpr hb⟩
    · by_cases hc : c = '}'
      · subst hc
        cases depth with
        | zero => exact ⟨[], cs, rfl, (closes_nil_iff 0).mpr rfl⟩
        | succ depth =>
          rw [List.count_cons_self, List.count_cons_of_ne (by decide)] at h
          obtain ⟨body, after, rfl, hb⟩ := ih depth (by omega)
          exact ⟨'}' :: body, after, rfl, (closes_close_iff _ body).mpr ⟨depth, rfl, hb⟩⟩
      · rw [List.count_cons_of_ne ho, List.count_cons_of_ne hc] at h
        obtain ⟨body, after, rfl, hb⟩ := ih depth h
        exact ⟨c :: body, after, rfl, (closes_plain_iff depth c body ho hc).mpr hb⟩

/-- Where `depth + more + 1` braces are closed, one of them closes the first `depth + 1`. -/
theorem exists_close (depth more : Nat) (cs : List Char) (h : Closes (depth + more + 1) cs) :
    ∃ body after, cs = body ++ '}' :: after ∧ Closes depth body ∧ Closes more after := by
  have hcount : cs.count '{' + depth < cs.count '}' := by
    have := h.1
    omega
  obtain ⟨body, after, rfl, hb⟩ := exists_close_of_count depth cs hcount
  rw [Nat.add_assoc, closes_append_iff depth (more + 1) body _ hb] at h
  obtain ⟨d, hd, ha⟩ := (closes_close_iff (more + 1) after).mp h
  obtain rfl : more = d := by omega
  exact ⟨body, after, rfl, hb, ha⟩

theorem EachClosed.of_append (front rest : List Char) (h : EachClosed (front ++ rest)) :
    EachClosed rest := by
  intro before more he
  apply h (front ++ before) more
  rw [he, List.append_assoc]

theorem count_le_of_eachClosed (cs : List Char) (h : EachClosed cs) :
    cs.count '{' ≤ cs.count '}' := by
  -- what stands behind the partner of the first opening brace is a shorter text of this kind
  induction hn : cs.length using Nat.strongRecOn generalizing cs with
  | ind n ih =>
    cases cs with
    | nil => exact Nat.le_refl _
    | cons c cs =>
      rw [List.length_cons] at hn
      by_cases ho : c = '{'
      · subst ho
        obtain ⟨body, after, rfl, hb, -⟩ := h [] cs rfl
        rw [List.length_append, List.length_cons] at hn
        have hafter : EachClosed after := by
          apply EachClosed.of_append ('{' :: (body ++ ['}']))
          simpa using h
        have hless := ih after.length (by omega) after hafter rfl
        simp only [List.count_cons_self, List.count_append,
          List.count_cons_of_ne (show '}' ≠ '{' by decide),
          List.count_cons_of_ne (show '{' ≠ '}' by decide)]
        omega
      · have hrest : EachClosed cs := EachClosed.of_append [c] cs h
        have hless := ih cs.length (by omega) cs hrest rfl
        rw [List.count_cons_of_ne ho]
        exact Nat.le_trans hless List.count_le_count_cons

/-- Each opening brace is closed exactly if no end of the text opens more than it closes. -/
theorem eachClosed_iff_count (cs : List Char) :
    EachClosed cs ↔ ∀ back, back <:+ cs → back.count '{' ≤ back.count '}' := by
  constructor
  · rintro h back ⟨front, rfl⟩
    exact count_le_of_eachClosed back (EachClosed.of_append front back h)
  · rintro h before rest rfl
    have hback := h ('{' :: rest) (List.suffix_append before _)
    rw [List.count_cons_self, List.count_cons_of_ne (by decide)] at hback
    exact exists_close_of_count 0 rest hback

instance (body : List Char) : Decidable (IsBalanced body) :=
  decidable_of_iff (body.count '}' = body.count '{' ∧
    ∀ front ∈ body.inits, front.count '}' ≤ front.count '{') <| by
    simp only [List.mem_inits, IsBalanced]

instance (p : List Char) : Decidable (EachClosed p) :=
  decidable_of_iff (∀ rest ∈ p.tails, rest.head? = some '{' → (splitClose 0 rest.tail).isSome) <| by
    simp only [List.mem_tails, Option.isSome_iff_exists, Prod.exists, splitClose_eq_some_iff]
    constructor
    · rintro h before rest rfl
      exact h ('{' :: rest) (List.suffix_append before _) rfl
    · rintro h _ ⟨before, rfl⟩ hhead
      obtain ⟨rest, rfl⟩ := List.head?_eq_some_iff.mp hhead
      exact h before rest rfl

end TreeSelect.Glob
