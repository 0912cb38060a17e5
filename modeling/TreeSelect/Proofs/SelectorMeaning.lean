import Mathlib.Data.List.Forall2
import TreeSelect.Proofs.SelectorDraft

namespace TreeSelect.Selector

theorem bind_eq_ok_iff {ε α β : Type} (x : Except ε α) (f : α → Except ε β) (b : β) :
    (x >>= f) = .ok b ↔ ∃ a, x = .ok a ∧ f a = .ok b := by
  cases x with
  | error e => simp [bind, Except.bind]
  | ok a => simp [bind, Except.bind]

theorem mapM_eq_ok_iff {ε α β : Type} (f : α → Except ε β) (xs : List α) (ys : List β) :
    xs.mapM f = .ok ys ↔ List.Forall₂ (fun x y => f x = .ok y) xs ys := by
  induction xs generalizing ys with
  | nil => cases ys <;> simp [pure, Except.pure]
  | cons x xs ih =>
    simp only [List.mapM_cons, bind_eq_ok_iff, ih, List.forall₂_cons_left_iff]
    constructor
    · rintro ⟨y, hy, ys', hys, he⟩
      exact ⟨y, ys', hy, hys, (Except.ok.inj he).symm⟩
    · rintro ⟨y, ys', hy, hys, rfl⟩
      exact ⟨y, hy, ys', hys, rfl⟩

/-- The name of a pseudo in small letters. -/
def Pseudo.name : Pseudo → String
  | .pick .first => "first"
  | .pick .last => "last"
  | .pick (.nth _) => "nth"
  | .place .firstChild => "first-child"
  | .place .lastChild => "last-child"
  | .place (.nthChild _) => "nth-child"
  | .place (.nthLastChild _) => "nth-last-child"

/-- The number that stands behind the name, for the pseudos that have one. -/
def Pseudo.index : Pseudo → Option Nat
  | .pick (.nth i) => some i
  | .place (.nthChild i) => some i
  | .place (.nthLastChild i) => some i
  | _ => none

/-- Places among siblings are counted from 1. -/
def Pseudo.Counted : Pseudo → Prop
  | .place (.nthChild i) => 1 ≤ i
  | .place (.nthLastChild i) => 1 ≤ i
  | _ => True

theorem pseudoOf_eq_ok_iff (name shown : String) (index : Option Nat) (p : Pseudo) :
    pseudoOf name shown index = .ok p ↔ name = p.name ∧ index = p.index ∧ p.Counted := by
  constructor
  · intro h
    unfold pseudoOf at h
    split at h <;> cases h <;> simp [Pseudo.name, Pseudo.index, Pseudo.Counted]
  · rintro ⟨rfl, rfl, hc⟩
    rcases p with (_ | _ | i) | (_ | _ | i | i)
    · rfl
    · rfl
    · rfl
    · rfl
    · rfl
    · obtain ⟨j, rfl⟩ := Nat.exists_eq_add_of_le' hc
      rfl
    · obtain ⟨j, rfl⟩ := Nat.exists_eq_add_of_le' hc
      rfl

theorem valueOf_digits (digits : List Char) :
    Text.valueOf (digits.map fun c => c.toNat - '0'.toNat) = Nat.ofDigitChars 10 digits 0 := by
  rw [Text.valueOf, List.foldl_map, Nat.ofDigitChars_eq_foldl]
  simp only [Nat.mul_comm]

theorem readIndex_eq_ok_iff (digits : List Char) (i : Nat) :
    readIndex digits = .ok i ↔
      digits.length ≤ Text.digitLimit ∧ Nat.ofDigitChars 10 digits 0 = i := by
  rw [readIndex, valueOf_digits]
  split
  next h => simp [Nat.not_le.mpr h]
  next h => simp [Nat.not_lt.mp h]

theorem index_eq_ok_iff (digits : List Char) (index : Option Nat) :
    (some digits).mapM readIndex = .ok index ↔ digits.length ≤ Text.digitLimit ∧
      index = some (Nat.ofDigitChars 10 digits 0) := by
  have hmap : (some digits).mapM readIndex = readIndex digits >>= fun i => .ok (some i) := by
    rw [Option.mapM_some]
    cases readIndex digits <;> rfl
  rw [hmap, bind_eq_ok_iff]
  constructor
  · rintro ⟨i, hi, he⟩
    obtain ⟨hlen, rfl⟩ := (readIndex_eq_ok_iff digits i).mp hi
    exact ⟨hlen, (Except.ok.inj he).symm⟩
  · rintro ⟨hlen, rfl⟩
    exact ⟨_, (readIndex_eq_ok_iff digits _).mpr ⟨hlen, rfl⟩, rfl⟩

/-- What a written pseudo means. -/
structure PseudoMeans (w : Written.Pseudo) (p : Pseudo) : Prop where
  index : w.index.mapM readIndex = .ok p.index
  name : String.ofList (w.name.map Char.toLower) = p.name
  counted : p.Counted

theorem pseudos_meaning_iff (ws : List Written.Pseudo) (indexes : List (Option Nat))
    (ps : List Pseudo) :
    (List.Forall₂ (fun w i => w.index.mapM readIndex = .ok i) ws indexes ∧
      List.Forall₂ (fun (w, i) p =>
        pseudoOf (String.ofList (w.name.map Char.toLower)) (String.ofList w.name) i = .ok p)
        (ws.zip indexes) ps) ↔
      List.Forall₂ PseudoMeans ws ps ∧ indexes = ps.map Pseudo.index := by
  induction ws generalizing indexes ps with
  | nil => cases indexes <;> cases ps <;> simp
  | cons w ws ih =>
    cases indexes with
    | nil => cases ps <;> simp
    | cons i indexes =>
      cases ps with
      | nil => simp
      | cons p ps =>
        have h := ih indexes ps
        simp only [List.zip_cons_cons, List.forall₂_cons, pseudoOf_eq_ok_iff, List.map_cons,
          List.cons.injEq] at h ⊢
        constructor
        · rintro ⟨⟨hi, his⟩, ⟨hname, rfl, hc⟩, hps⟩
          obtain ⟨hmeans, hindexes⟩ := h.mp ⟨his, hps⟩
          exact ⟨⟨⟨hi, hname, hc⟩, hmeans⟩, rfl, hindexes⟩
        · rintro ⟨⟨⟨hi, hname, hc⟩, hmeans⟩, rfl, hindexes⟩
          obtain ⟨his, hps⟩ := h.mpr ⟨hmeans, hindexes⟩
          exact ⟨⟨hi, his⟩, ⟨hname, rfl, hc⟩, hps⟩

theorem step_meaning_eq_ok_iff (w : Written.Step) (s : Step) :
    w.meaning = .ok s ↔ s.type = w.type.bind Written.NodeType.meaning ∧
      s.predicates = w.predicates.map Written.Predicate.meaning ∧
      List.Forall₂ PseudoMeans w.pseudos s.pseudos := by
  have hps (indexes : List (Option Nat)) := pseudos_meaning_iff w.pseudos indexes s.pseudos
  simp only [Written.Step.meaning, bind_eq_ok_iff, mapM_eq_ok_iff]
  constructor
  · rintro ⟨indexes, hi, ps, hp, he⟩
    cases he
    exact ⟨rfl, rfl, ((hps indexes).mp ⟨hi, hp⟩).1⟩
  · rintro ⟨htype, hpredicates, hpseudos⟩
    obtain ⟨hi, hp⟩ := (hps _).mpr ⟨hpseudos, rfl⟩
    refine ⟨_, hi, s.pseudos, hp, ?_⟩
    rw [← htype, ← hpredicates]
    rfl

theorem tied_meaning_iff (w : Combinator × Written.Step) (t : Combinator × Step) :
    (∃ s, w.2.meaning = .ok s ∧ (pure (w.1, s) : Except Error (Combinator × Step)) = .ok t) ↔
      w.1 = t.1 ∧ w.2.meaning = .ok t.2 := by
  constructor
  · rintro ⟨s, hs, he⟩
    cases he
    exact ⟨rfl, hs⟩
  · rintro ⟨hc, hs⟩
    exact ⟨t.2, hs, by rw [hc]; rfl⟩

theorem query_meaning_eq_ok_iff (w : Written.Query) (q : Query) :
    w.meaning = .ok q ↔ w.first.meaning = .ok q.first ∧
      List.Forall₂ (fun v t => v.1 = t.1 ∧ v.2.meaning = .ok t.2) w.rest q.rest := by
  simp only [Written.Query.meaning, bind_eq_ok_iff, mapM_eq_ok_iff, tied_meaning_iff]
  constructor
  · rintro ⟨first, hfirst, rest, hr, he⟩
    cases he
    exact ⟨hfirst, hr⟩
  · rintro ⟨hfirst, hr⟩
    exact ⟨q.first, hfirst, q.rest, hr, rfl⟩

/-- A selector is read when the scan comes to the end of the text, the draft may end there, and its
alternatives have a meaning. -/
theorem parse_eq_ok_iff (text : List Char) (l : SelectorList) :
    parse text = .ok l ↔ (scan text).rest = [] ∧ .ending ∈ (scan text).draft.cursor.accepts ∧
      List.Forall₂ (fun w q => w.meaning = .ok q) (scan text).draft.queries l.queries := by
  rw [← mapM_eq_ok_iff, parse, written]
  split
  next e h =>
    split at h
    · contradiction
    next hend =>
      exact iff_of_false (by simp) fun hok => hend ⟨hok.1, hok.2.1⟩
  next queries h =>
    split at h
    next hend =>
      cases h
      simp only [hend.1, hend.2, true_and]
      cases hm : (scan text).draft.queries.mapM Written.Query.meaning with
      | error e => simp [Except.map]
      | ok qs =>
        simp only [Except.map, Except.ok.injEq]
        exact ⟨fun h => h ▸ rfl, fun h => h ▸ rfl⟩
    · contradiction

/-- A scan that comes to the end of a text of the right form has found the tokens of its parts. -/
theorem tokens_of_scan (text : List Char) (hrest : (scan text).rest = [])
    (hend : .ending ∈ (scan text).draft.cursor.accepts) :
    Takes .empty (scan text).tokens (scan text).draft ∧ Shown (scan text).tokens text ∧
      Written.queriesTokens (scan text).draft.queries = (scan text).tokens ∧
      ∀ w ∈ (scan text).draft.queries, w.Sound := by
  obtain ⟨htakes, hshown⟩ : Takes .empty (scan text).tokens (scan text).draft ∧
      Shown (scan text).tokens text := shown_of_scanFrom .empty 0 text hrest
  obtain ⟨hsound, htokens⟩ :=
    Written.takes_tokens _ _ _ htakes Written.empty_sound hshown.laid.whole
  obtain ⟨hqueries, hsounds⟩ := Written.queries_tokens _ hsound hend
  exact ⟨htakes, hshown, hqueries.trans htokens, hsounds⟩

/-- The written parts behind a selector that is read. Their tokens are those that the text shows. -/
theorem exists_written_of_parse (text : List Char) (l : SelectorList) (h : parse text = .ok l) :
    ∃ ws d, Takes .empty (Written.queriesTokens ws) d ∧ Laid (Written.queriesTokens ws) text ∧
      ws ≠ [] ∧ (∀ w ∈ ws, w.Sound ∧ ∀ t ∈ w.tokens, t.Whole) ∧
      List.Forall₂ (fun w q => w.meaning = .ok q) ws l.queries := by
  obtain ⟨hrest, hend, hmeaning⟩ := (parse_eq_ok_iff text l).mp h
  obtain ⟨htakes, hshown, hts, hsounds⟩ := tokens_of_scan text hrest hend
  have hlaid := hshown.laid
  refine ⟨(scan text).draft.queries, (scan text).draft, hts ▸ htakes, hts ▸ hlaid, ?_, ?_, hmeaning⟩
  · simp [Written.Draft.queries, Written.Draft.endQuery]
  · intro w hw
    refine ⟨hsounds w hw, fun t ht => hlaid.whole _ _ t ?_⟩
    rw [← hts]
    exact Written.mem_intercalate _ _ _ (List.mem_map_of_mem hw) t ht

end TreeSelect.Selector
