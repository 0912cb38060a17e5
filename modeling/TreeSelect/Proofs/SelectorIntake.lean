import TreeSelect.Proofs.SelectorDraft

namespace TreeSelect.Selector.Written

/-- A step with its type written, whose predicates all name an attribute. -/
structure Step.Explicit (s : Step) : Prop where
  type : s.type ≠ none
  paths : ∀ p ∈ s.predicates, p.path ≠ []

structure Query.Explicit (q : Query) : Prop where
  first : q.first.Explicit
  rest : ∀ t ∈ q.rest, t.2.Explicit

/-- The alternative that a draft is writing, with its present step. -/
def Draft.current (d : Draft) : Query := Query.extend d.query d.tie d.step

theorem accepts_of_settle (d : Draft) (k : Kind) (hc : d.settle.cursor = .step)
    (hk : k ∈ Cursor.step.accepts) : k ∈ d.cursor.accepts := by
  cases h : d.cursor with
  | step => exact hk
  | pseudo name => exact List.mem_cons_of_mem _ hk
  | _ =>
    have hsettle : d.settle.cursor = d.cursor := by simp [Draft.settle, h]
    rw [hsettle, h] at hc
    contradiction

theorem push_of_settle (d : Draft) (t : Token) (hk : t.kind ∈ Cursor.step.accepts) :
    d.push t = d.settle.push t := by
  cases h : d.cursor with
  | pseudo name => exact push_settle d t name h hk
  | _ =>
    have hsettle : d.settle = d := by simp [Draft.settle, h]
    rw [hsettle]

theorem settle_settle (d : Draft) (hc : d.settle.cursor = .step) : d.settle.settle = d.settle := by
  simp [Draft.settle.eq_def d.settle, hc]

theorem takes_dotted (d : Draft) (names more : List (List Char)) (n : List Char)
    (hc : d.cursor = .path names) :
    Takes d (dotted (n :: more)) { d with cursor := .attribute (names ++ n :: more) } := by
  have hname : Kind.name ∈ d.cursor.accepts := by simp [hc, Cursor.accepts]
  have hpush : d.push (.name n) = { d with cursor := .attribute (names ++ [n]) } := by
    simp [Draft.push, hc]
  induction more generalizing d names n with
  | nil => exact hpush ▸ Takes.single d (.name n) hname
  | cons m more ih =>
    have hdotted : dotted (n :: m :: more) = .name n :: .dot :: dotted (m :: more) := by
      simp [dotted]
    -- the name is taken, and the dot leaves the draft where the rest of the path is read
    have hdot : Takes { d with cursor := .path (names ++ [n]) } (dotted (m :: more))
        { d with cursor := .attribute (names ++ [n] ++ m :: more) } :=
      ih { d with cursor := .path (names ++ [n]) } (names ++ [n]) m rfl (by simp [Cursor.accepts])
        (by simp [Draft.push])
    rw [hdotted]
    refine .next d _ _ _ hname (hpush ▸ .next _ _ .dot _ (by simp [Cursor.accepts, Token.kind]) ?_)
    simpa [Draft.push] using hdot

theorem takes_predicate (d : Draft) (p : Predicate) (hc : d.cursor = .step)
    (hs : d.step.pseudos = []) (hp : p.path ≠ []) : Takes d p.tokens (d.addPredicate p) := by
  obtain ⟨path, test⟩ := p
  obtain ⟨n, more, rfl⟩ := List.exists_cons_of_ne_nil hp
  have hopen : d.push .openBracket = { d with cursor := .path [] } := by
    simp [Draft.push, Draft.settle, Draft.openPredicate, hc, hs]
  have hpath : Takes d (.openBracket :: dotted (n :: more))
      { d with cursor := .attribute (n :: more) } := by
    refine .next d _ .openBracket _ (by simp [hc, Cursor.accepts, Token.kind]) ?_
    rw [hopen]
    exact takes_dotted { d with cursor := .path [] } [] more n rfl
  cases test with
  | none =>
    have hclose := Takes.single { d with cursor := .attribute (n :: more) } .closeBracket
      (by simp [Cursor.accepts, Token.kind])
    simpa [Predicate.tokens, Draft.push, Draft.addPredicate] using hpath.append hclose
  | some test =>
    obtain ⟨c, v⟩ := test
    have hvalue : Takes { d with cursor := .comparison (n :: more) c } [v.token, .closeBracket]
        (d.addPredicate ⟨n :: more, some (c, v)⟩) := by
      cases v with
      | quoted mark body =>
        refine .next _ _ _ _ (by simp [Cursor.accepts, Token.kind, Value.token]) ?_
        exact Takes.single { d with cursor := .value (n :: more) c (.quoted mark body) }
          .closeBracket (by simp [Cursor.accepts, Token.kind])
      | bare text =>
        refine .next _ _ _ _ (by simp [Cursor.accepts, Token.kind, Value.token]) ?_
        exact Takes.single { d with cursor := .value (n :: more) c (.bare text) }
          .closeBracket (by simp [Cursor.accepts, Token.kind])
    have htest : Takes { d with cursor := .attribute (n :: more) }
        [.comparison c, v.token, .closeBracket] (d.addPredicate ⟨n :: more, some (c, v)⟩) :=
      .next _ _ _ _ (by simp [Cursor.accepts, Token.kind]) hvalue
    simpa [Predicate.tokens] using hpath.append htest

theorem takes_predicates (d : Draft) (ps : List Predicate) (hc : d.cursor = .step)
    (hs : d.step.pseudos = []) (hp : ∀ p ∈ ps, p.path ≠ []) :
    Takes d (ps.flatMap Predicate.tokens)
      { d with step := { d.step with predicates := d.step.predicates ++ ps } } := by
  induction ps generalizing d with
  | nil => simpa using Takes.done d
  | cons p ps ih =>
    have hfirst := takes_predicate d p hc hs (hp p (by simp))
    have hrest := ih (d.addPredicate p) rfl hs fun q hq => hp q (List.mem_cons_of_mem p hq)
    have hall := hfirst.append hrest
    simpa [Draft.addPredicate, hc] using hall

theorem takes_pseudo (d : Draft) (p : Pseudo) (hc : d.settle.cursor = .step) :
    ∃ d', Takes d p.tokens d' ∧ d'.settle = d.settle.addPseudo p := by
  obtain ⟨name, index⟩ := p
  have hcolon : Kind.colon ∈ d.cursor.accepts :=
    accepts_of_settle d .colon hc (by simp [Cursor.accepts])
  have hpush : d.push .colon = { d.settle with cursor := .colon } := by
    rw [push_of_settle d .colon (by simp [Cursor.accepts, Token.kind])]
    simp [Draft.push, hc, settle_settle d hc]
  have hname : Takes d [.colon, .pseudoName name] { d.settle with cursor := .pseudo name } := by
    refine .next d _ .colon _ hcolon (hpush ▸ ?_)
    exact Takes.single { d.settle with cursor := .colon } (.pseudoName name)
      (by simp [Cursor.accepts, Token.kind])
  cases index with
  | none => exact ⟨_, hname, rfl⟩
  | some digits =>
    have hindex : Takes { d.settle with cursor := .pseudo name }
        [.openParen, .int digits, .closeParen] (d.settle.addPseudo ⟨name, some digits⟩) :=
      .next _ _ _ _ (by simp [Cursor.accepts, Token.kind])
        (.next _ _ _ _ (by simp [Draft.push, Cursor.accepts, Token.kind])
          (Takes.single { d.settle with cursor := .index name digits } .closeParen
            (by simp [Cursor.accepts, Token.kind])))
    exact ⟨_, hname.append hindex, rfl⟩

theorem takes_pseudos (d : Draft) (ps : List Pseudo) (hc : d.settle.cursor = .step) :
    ∃ d', Takes d (ps.flatMap Pseudo.tokens) d' ∧
      d'.settle = { d.settle with step := { d.settle.step with
        pseudos := d.settle.step.pseudos ++ ps } } := by
  induction ps generalizing d with
  | nil => exact ⟨d, .done d, by simp⟩
  | cons p ps ih =>
    obtain ⟨e, hfirst, he⟩ := takes_pseudo d p hc
    obtain ⟨d', hrest, hd'⟩ := ih e (by rw [he]; rfl)
    refine ⟨d', hfirst.append hrest, ?_⟩
    rw [hd', he]
    simp [Draft.addPseudo, hc]

/-- What stands behind the type of a step. -/
theorem takes_after_type (d : Draft) (s : Step) (type : NodeType) (ht : s.type = some type)
    (hp : ∀ p ∈ s.predicates, p.path ≠ []) (hc : d.cursor = .step)
    (hd : d.step = ⟨some type, [], []⟩) :
    ∃ d', Takes d (s.predicates.flatMap Predicate.tokens ++ s.pseudos.flatMap Pseudo.tokens) d' ∧
      d'.settle = { d with step := s } := by
  have hpredicates := takes_predicates d s.predicates hc (by rw [hd]) hp
  obtain ⟨d', hpseudos, hd'⟩ := takes_pseudos
    { d with step := { d.step with predicates := d.step.predicates ++ s.predicates } } s.pseudos
    (by simp [Draft.settle, hc])
  refine ⟨d', hpredicates.append hpseudos, ?_⟩
  rw [hd']
  simp [Draft.settle, hc, hd, ← ht]

theorem step_tokens (s : Step) (type : NodeType) (ht : s.type = some type) :
    s.tokens = [type.token] ++
      (s.predicates.flatMap Predicate.tokens ++ s.pseudos.flatMap Pseudo.tokens) := by
  simp [Step.tokens, ht]

/-- A step that begins a query, or stands behind the sign of a combinator. -/
theorem takes_step (d : Draft) (s : Step) (hs : s.Explicit) (hc : d.cursor = .gap) :
    ∃ d', Takes d s.tokens d' ∧ d'.settle = { d with step := s, cursor := .step } := by
  obtain ⟨type, htype⟩ := Option.ne_none_iff_exists'.mp hs.type
  have hadd : d.push type.token = { d with step := ⟨some type, [], []⟩, cursor := .step } := by
    cases type <;> simp [NodeType.token, Draft.push, hc, Draft.settle, Draft.addType]
  have htake : Takes d [type.token] { d with step := ⟨some type, [], []⟩, cursor := .step } :=
    hadd ▸ Takes.single d type.token
      (by cases type <;> simp [hc, NodeType.token, Cursor.accepts, Token.kind])
  obtain ⟨d', hafter, hd'⟩ := takes_after_type
    { d with step := ⟨some type, [], []⟩, cursor := .step } s type htype hs.paths rfl rfl
  exact ⟨d', step_tokens s type htype ▸ htake.append hafter, hd'⟩

/-- A step that is tied to the step before it. -/
theorem takes_tied (d : Draft) (c : Combinator) (s : Step) (hs : s.Explicit)
    (hc : d.settle.cursor = .step) :
    ∃ d', Takes d (tieTokens c ++ s.tokens) d' ∧
      d'.settle = { d.settle.breakStep c with step := s, cursor := .step } := by
  -- a descendant has no token of its own: its type ends the step before it
  by_cases hdesc : c = .descendant
  · obtain ⟨type, htype⟩ := Option.ne_none_iff_exists'.mp hs.type
    have hkind : type.token.kind ∈ Cursor.step.accepts := by
      cases type <;> simp [NodeType.token, Cursor.accepts, Token.kind]
    have hadd : d.push type.token =
        { d.settle.breakStep c with step := ⟨some type, [], []⟩, cursor := .step } := by
      rw [push_of_settle d type.token hkind, hdesc]
      cases type <;>
        simp [NodeType.token, Draft.push, hc, settle_settle d hc, Draft.addType]
    have htake := hadd ▸ Takes.single d type.token (accepts_of_settle d _ hc hkind)
    obtain ⟨d', hafter, hd'⟩ := takes_after_type
      { d.settle.breakStep c with step := ⟨some type, [], []⟩, cursor := .step } s type htype
      hs.paths rfl rfl
    refine ⟨d', ?_, hd'⟩
    rw [hdesc]
    exact step_tokens s type htype ▸ htake.append hafter
  · have htie : tieTokens c = [.combinator c] := by cases c <;> simp_all [tieTokens]
    have hbreak : d.push (.combinator c) = d.settle.breakStep c := by
      rw [push_of_settle d (.combinator c) (by simp [Cursor.accepts, Token.kind])]
      simp [Draft.push, hc, settle_settle d hc]
    have htake := hbreak ▸ Takes.single d (.combinator c)
      (accepts_of_settle d _ hc (by simp [Cursor.accepts, Token.kind]))
    obtain ⟨d', hstep, hd'⟩ := takes_step (d.settle.breakStep c) s hs rfl
    exact ⟨d', htie ▸ htake.append hstep, hd'⟩

theorem takes_rest (d : Draft) (rest : List (Combinator × Step)) (hc : d.settle.cursor = .step)
    (hs : ∀ t ∈ rest, t.2.Explicit) :
    ∃ d', Takes d (rest.flatMap fun (c, s) => tieTokens c ++ s.tokens) d' ∧
      d'.settle.cursor = .step ∧ d'.settle.done = d.settle.done ∧
      d'.settle.current = ⟨d.settle.current.first, d.settle.current.rest ++ rest⟩ := by
  induction rest generalizing d with
  | nil => exact ⟨d, .done d, hc, rfl, by simp⟩
  | cons t rest ih =>
    obtain ⟨e, htied, he⟩ := takes_tied d t.1 t.2 (hs t (by simp)) hc
    obtain ⟨d', hrest, hc', hdone, hcurrent⟩ :=
      ih e (by rw [he]) fun u hu => hs u (List.mem_cons_of_mem t hu)
    refine ⟨d', htied.append hrest, hc', ?_, ?_⟩
    · rw [hdone, he]
      rfl
    · rw [hcurrent, he]
      simp [Draft.current, Draft.breakStep, Query.extend]

theorem takes_query (done : List Query) (q : Query) (hq : q.Explicit) :
    ∃ d', Takes { Draft.empty with done } q.tokens d' ∧ d'.settle.cursor = .step ∧
      d'.settle.done = done ∧ d'.settle.current = q := by
  obtain ⟨e, hfirst, he⟩ := takes_step { Draft.empty with done } q.first hq.first rfl
  obtain ⟨d', hrest, hc, hdone, hcurrent⟩ := takes_rest e q.rest (by rw [he]) hq.rest
  refine ⟨d', hfirst.append hrest, hc, ?_, ?_⟩
  · rw [hdone, he]
  · rw [hcurrent, he]
    rfl

/-- A draft takes the tokens of alternatives, and then they are its alternatives. -/
theorem takes_queries (done qs : List Query) (hne : qs ≠ []) (hq : ∀ q ∈ qs, q.Explicit) :
    ∃ d', Takes { Draft.empty with done } (queriesTokens qs) d' ∧ .ending ∈ d'.cursor.accepts ∧
      d'.queries = done ++ qs := by
  induction qs generalizing done with
  | nil => contradiction
  | cons q qs ih =>
    obtain ⟨e, hquery, hc, hdone, hcurrent⟩ := takes_query done q (hq q (by simp))
    by_cases hqs : qs = []
    · refine ⟨e, by simpa [queriesTokens, hqs] using hquery,
        accepts_of_settle e .ending hc (by simp [Cursor.accepts]), ?_⟩
      rw [hqs, ← hcurrent, ← hdone]
      rfl
    · have hcomma : e.push .comma = { Draft.empty with done := done ++ [q] } := by
        rw [push_of_settle e .comma (by simp [Cursor.accepts, Token.kind])]
        simp only [Draft.push, hc, settle_settle e hc, Draft.endQuery, hdone, ← hcurrent]
        rfl
      have htake := hcomma ▸ Takes.single e .comma
        (accepts_of_settle e _ hc (by simp [Cursor.accepts, Token.kind]))
      obtain ⟨d', hrest, hend, hqueries⟩ :=
        ih (done ++ [q]) hqs fun p hp => hq p (List.mem_cons_of_mem q hp)
      refine ⟨d', ?_, hend, by simpa using hqueries⟩
      have htokens : queriesTokens (q :: qs) = q.tokens ++ [.comma] ++ queriesTokens qs := by
        rw [queriesTokens, List.map_cons, List.intercalate_cons_of_ne_nil (by simpa using hqs)]
        rfl
      exact htokens ▸ (hquery.append htake).append hrest

end TreeSelect.Selector.Written
