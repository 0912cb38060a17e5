import TreeSelect.Proofs.SelectorSpacing

namespace TreeSelect.Selector
open Written

/-- The tokens of some alternatives, with commas between them. -/
def Sentence (ts : List Token) : Prop :=
  ∃ qs : List Written.Query, qs ≠ [] ∧ (∀ q ∈ qs, q.Sound) ∧ queriesTokens qs = ts

/-- A step that begins a query, with or without its type. -/
theorem takes_begin (d : Draft) (s : Written.Step) (hs : s.Sound) (hc : d.cursor = .gap)
    (hb : d.step = .blank) : ∃ d', Takes d s.tokens d' ∧ d'.settle.cursor = .step := by
  by_cases htype : s.type = none
  · -- the first token leads to where it would lead from a step of which nothing is written
    obtain ⟨d', htakes, hd'⟩ :=
      takes_untyped { d with cursor := .step } s rfl htype hs.paths fun _ => by rw [hb]; rfl
    have hpush (t : Token) (ht : t = .openBracket ∨ t = .colon) :
        d.push t = Draft.push { d with cursor := .step } t := by
      rcases ht with rfl | rfl <;> simp [Draft.push, Draft.settle, hc, Draft.openPredicate, hb,
        Step.blank]
    obtain ⟨t, ts, htokens, ht⟩ : ∃ t ts, s.tokens = t :: ts ∧ (t = .openBracket ∨ t = .colon) := by
      rcases tokens_eq_cons s hs.written with ⟨_, _, hsome, -⟩ | ⟨-, -, ts, hts⟩ | ⟨-, -, ts, hts⟩
      · rw [htype] at hsome
        contradiction
      · exact ⟨_, ts, hts, .inl rfl⟩
      · exact ⟨_, ts, hts, .inr rfl⟩
    rw [htokens] at htakes ⊢
    cases htakes with
    | next _ _ _ _ _ hrest =>
      rw [← hpush t ht] at hrest
      have hkind : t.kind ∈ d.cursor.accepts := by
        rcases ht with rfl | rfl <;> simp [hc, Cursor.accepts, Token.kind]
      exact ⟨d', .next d d' t ts hkind hrest, by rw [hd']⟩
  · obtain ⟨d', htakes, hd'⟩ := takes_step d s ⟨htype, hs.paths⟩ hc
    exact ⟨d', htakes, by rw [hd']⟩

/-- A step behind another one, which it may also go on with. -/
theorem takes_follow (d : Draft) (s : Written.Step) (hs : s.Sound) (hc : d.settle.cursor = .step) :
    ∃ d', Takes d s.tokens d' ∧ d'.settle.cursor = .step := by
  by_cases hjoin : s.type = none ∧ (s.predicates ≠ [] → d.settle.step.pseudos = [])
  · obtain ⟨d', htakes, hd'⟩ := takes_joined d s hc hs hjoin
    exact ⟨d', htakes, by rw [hd']; exact hc⟩
  · obtain ⟨d', htakes, hd'⟩ := takes_descendant d s hc hs hjoin
    exact ⟨d', htakes, by rw [hd']⟩

theorem push_sign (d : Draft) (c : Combinator) (hc : d.settle.cursor = .step) :
    Takes d [.combinator c] (d.settle.breakStep c) := by
  have hpush : d.push (.combinator c) = d.settle.breakStep c := by
    rw [push_of_settle d (.combinator c) (by simp [Cursor.accepts, Token.kind])]
    simp [Draft.push, hc, settle_settle d hc]
  exact hpush ▸ Takes.single d (.combinator c)
    (accepts_of_settle d _ hc (by simp [Cursor.accepts, Token.kind]))

theorem takes_tied_sound (d : Draft) (c : Combinator) (s : Written.Step) (hs : s.Sound)
    (hc : d.settle.cursor = .step) :
    ∃ d', Takes d (tieTokens c ++ s.tokens) d' ∧ d'.settle.cursor = .step := by
  by_cases hdesc : c = .descendant
  · rw [hdesc]
    exact takes_follow d s hs hc
  · have htie : tieTokens c = [.combinator c] := by cases c <;> simp_all [tieTokens]
    obtain ⟨d', htakes, hd'⟩ := takes_begin (d.settle.breakStep c) s hs rfl rfl
    exact ⟨d', htie ▸ (push_sign d c hc).append htakes, hd'⟩

theorem takes_rest_sound (d : Draft) (rest : List (Combinator × Written.Step))
    (hs : ∀ t ∈ rest, t.2.Sound) (hc : d.settle.cursor = .step) :
    ∃ d', Takes d (rest.flatMap fun (c, s) => tieTokens c ++ s.tokens) d' ∧
      d'.settle.cursor = .step := by
  induction rest generalizing d with
  | nil => exact ⟨d, .done d, hc⟩
  | cons t rest ih =>
    obtain ⟨e, htied, he⟩ := takes_tied_sound d t.1 t.2 (hs t List.mem_cons_self) hc
    obtain ⟨d', hrest, hd'⟩ := ih e (fun u hu => hs u (List.mem_cons_of_mem t hu)) he
    exact ⟨d', htied.append hrest, hd'⟩

theorem takes_query_sound (done : List Written.Query) (q : Written.Query) (hq : q.Sound) :
    ∃ d', Takes { Draft.empty with done } q.tokens d' ∧ d'.settle.cursor = .step := by
  obtain ⟨e, hfirst, he⟩ := takes_begin { Draft.empty with done } q.first hq.first rfl rfl
  obtain ⟨d', hrest, hd'⟩ := takes_rest_sound e q.rest hq.rest he
  exact ⟨d', hfirst.append hrest, hd'⟩

theorem takes_queries_sound (done qs : List Written.Query) (hne : qs ≠ [])
    (hq : ∀ q ∈ qs, q.Sound) :
    ∃ d', Takes { Draft.empty with done } (queriesTokens qs) d' ∧ d'.settle.cursor = .step := by
  induction qs generalizing done with
  | nil => contradiction
  | cons q qs ih =>
    obtain ⟨e, hquery, he⟩ := takes_query_sound done q (hq q List.mem_cons_self)
    by_cases hqs : qs = []
    · exact ⟨e, by simpa [queriesTokens, hqs] using hquery, he⟩
    · have hcomma : e.push .comma = { Draft.empty with done := e.settle.endQuery.done } := by
        rw [push_of_settle e .comma (by simp [Cursor.accepts, Token.kind])]
        simp only [Draft.push, he, settle_settle e he]
        rfl
      have htake := Takes.single e .comma
        (accepts_of_settle e _ he (by simp [Cursor.accepts, Token.kind]))
      rw [hcomma] at htake
      obtain ⟨d', hrest, hd'⟩ :=
        ih e.settle.endQuery.done hqs fun p hp => hq p (List.mem_cons_of_mem q hp)
      refine ⟨d', ?_, hd'⟩
      have htokens : queriesTokens (q :: qs) = q.tokens ++ [.comma] ++ queriesTokens qs := by
        rw [queriesTokens, List.map_cons, List.intercalate_cons_of_ne_nil (by simpa using hqs)]
        rfl
      exact htokens ▸ (hquery.append htake).append hrest

theorem takes_of_sentence (ts : List Token) (h : Sentence ts) :
    ∃ d, Takes .empty ts d ∧ .ending ∈ d.cursor.accepts := by
  obtain ⟨qs, hne, hsound, rfl⟩ := h
  obtain ⟨d, htakes, hd⟩ := takes_queries_sound [] qs hne hsound
  exact ⟨d, htakes, accepts_of_settle d .ending hd (by simp [Cursor.accepts])⟩

/-- What a draft takes that may end is a sentence. -/
theorem sentence_of_takes (ts : List Token) (d : Draft) (ht : Takes .empty ts d)
    (hw : ∀ t ∈ ts, t.Whole) (he : .ending ∈ d.cursor.accepts) : Sentence ts := by
  obtain ⟨hsound, htokens⟩ := takes_tokens _ _ _ ht empty_sound hw
  obtain ⟨hqueries, hsounds⟩ := queries_tokens d hsound he
  refine ⟨d.queries, by simp [Draft.queries, Draft.endQuery], hsounds, ?_⟩
  rw [hqueries, htokens]
  rfl

theorem Takes.eq_of_takes (d e e' : Draft) (ts : List Token) (h : Takes d ts e)
    (h' : Takes d ts e') : e = e' := by
  induction h with
  | done d =>
    cases h' with
    | done _ => rfl
  | next d e t ts ht _ ih =>
    cases h' with
    | next _ _ _ _ _ h' => exact ih h'

theorem Takes.split (d e : Draft) (ts us : List Token) (h : Takes d (ts ++ us) e) :
    ∃ m, Takes d ts m ∧ Takes m us e := by
  induction ts generalizing d with
  | nil => exact ⟨d, .done d, h⟩
  | cons t ts ih =>
    cases h with
    | next _ _ _ _ ht h =>
      obtain ⟨m, hm, hus⟩ := ih (d.push t) h
      exact ⟨m, .next d m t ts ht hm, hus⟩

/-- Tokens with which what is being written comes to an end. -/
def Cursor.finish : Cursor → List Token
  | .gap => [.star]
  | .step => []
  | .path _ => [.name ['a'], .closeBracket]
  | .attribute _ => [.closeBracket]
  | .comparison _ _ => [.bareword ['a'], .closeBracket]
  | .value _ _ _ => [.closeBracket]
  | .colon => [.pseudoName ['a']]
  | .pseudo _ => []
  | .openParen _ => [.int ['0'], .closeParen]
  | .index _ _ => [.closeParen]

theorem takes_finish (d : Draft) :
    ∃ d', Takes d (Cursor.finish d.cursor) d' ∧ .ending ∈ d'.cursor.accepts := by
  obtain ⟨done, query, tie, step, cursor⟩ := d
  cases cursor with
  | step | pseudo name => exact ⟨_, .done _, by simp [Cursor.accepts]⟩
  | path names | comparison names c | openParen name =>
    refine ⟨_, .next _ _ _ _ (by simp [Cursor.accepts, Token.kind])
      (Takes.single _ _ (by simp [Draft.push, Cursor.accepts, Token.kind])), ?_⟩
    simp [Draft.push, Draft.addPredicate, Draft.addPseudo, Cursor.accepts]
  | _ =>
    refine ⟨_, Takes.single _ _ (by simp [Cursor.accepts, Token.kind]), ?_⟩
    simp [Draft.push, Draft.settle, Draft.addType, Draft.addPredicate, Draft.addPseudo,
      Cursor.accepts]

theorem whole_of_mem_finish (c : Cursor) : ∀ t ∈ Cursor.finish c, t.Whole := by
  have hname : IsWord isNameStart isNameChar ['a'] := ⟨'a', [], rfl, by decide, by simp⟩
  have hpseudo : IsWord isNameStart isPseudoChar ['a'] := ⟨'a', [], rfl, by decide, by simp⟩
  have hbare : isBare 'a' = true := by decide
  cases c <;> simp [Cursor.finish, Token.Whole, hname, hpseudo, hbare]

/-- The end may come where the tokens are a sentence. -/
theorem ending_mem_accepts_iff (ts : List Token) (d : Draft) (ht : Takes .empty ts d)
    (hw : ∀ t ∈ ts, t.Whole) : .ending ∈ d.cursor.accepts ↔ Sentence ts := by
  constructor
  · exact sentence_of_takes ts d ht hw
  · intro h
    obtain ⟨e, htakes, hend⟩ := takes_of_sentence ts h
    rwa [ht.eq_of_takes _ _ _ _ htakes]

/-- The draft can be brought to an end, and what has been taken by then begins with what it took. -/
theorem sentence_finish (ts : List Token) (d : Draft) (ht : Takes .empty ts d)
    (hw : ∀ t ∈ ts, t.Whole) : Sentence (ts ++ Cursor.finish d.cursor) := by
  obtain ⟨e, hfinish, hend⟩ := takes_finish d
  refine sentence_of_takes _ e (ht.append hfinish) ?_ hend
  exact List.forall_mem_append.mpr ⟨hw, whole_of_mem_finish d.cursor⟩

/-- A token may come where it goes on with a sentence. -/
theorem kind_mem_accepts_iff (ts : List Token) (d : Draft) (ht : Takes .empty ts d)
    (hw : ∀ t ∈ ts, t.Whole) (t : Token) (hwhole : t.Whole) :
    t.kind ∈ d.cursor.accepts ↔ ∃ us, Sentence (ts ++ t :: us) := by
  constructor
  · intro h
    have hnext := ht.append (Takes.single d t h)
    have hall := sentence_finish _ _ hnext (List.forall_mem_append.mpr ⟨hw, by simpa using hwhole⟩)
    rw [List.append_assoc] at hall
    exact ⟨_, hall⟩
  · intro h
    obtain ⟨us, hus⟩ := h
    obtain ⟨e, htakes, -⟩ := takes_of_sentence _ hus
    obtain ⟨m, hts, hrest⟩ := htakes.split
    rw [ht.eq_of_takes _ _ _ _ hts]
    cases hrest with
    | next _ _ _ _ hk _ => exact hk

end TreeSelect.Selector
