import TreeSelect.Proofs.SelectorIntake
import TreeSelect.Proofs.SelectorMeaning

/-! Two steps with a blank between them. The blank ends the last token of the first step and is skipped,
so it is the first token of the second step that tells whether a step begins there: a node type always
begins one, a pseudo never does, and a predicate does so behind a pseudo only. -/
namespace TreeSelect.Selector
open Written

theorem Shown.gap (ts : List Token) (gap r : List Char) (hg : ∀ c ∈ gap, isGap c = true)
    (h : Shown ts r) : Shown ts (gap ++ r) := by
  cases h with
  | done gap' hg' => exact .done _ (List.forall_mem_append.mpr ⟨hg, hg'⟩)
  | next gap' r' t ts hg' hw hs hq h =>
    rw [← List.append_assoc]
    exact .next _ r' t ts (List.forall_mem_append.mpr ⟨hg, hg'⟩) hw hs hq h

theorem grows_blank (t : Token) : t.grows ' ' = false := by
  cases t <;> rfl

/-- A quotation mark that begins a bareword could be closed by a later one, and the bareword would
become a quoted value. These tokens have none that a text would close. -/
def MarksApart (ts : List Token) (text : List Char) : Prop :=
  ∀ t ∈ ts, t.kind = .bareword → ∀ m ∈ t.text.head?, m = '"' ∨ m = '\'' → m ∉ text

theorem quoted_none_append (cs ds : List Char) (hne : cs ≠ []) (h : Kind.quoted.read cs = none)
    (hm : ∀ m ∈ cs.head?, m = '"' ∨ m = '\'' → m ∉ ds) : Kind.quoted.read (cs ++ ds) = none := by
  cases hr : Kind.quoted.read (cs ++ ds) with
  | none => rfl
  | some x =>
    obtain ⟨t, rest⟩ := x
    have hkind := (Kind.read_append hr).1
    obtain ⟨mark, body, rfl⟩ : ∃ mark body, t = .quoted mark body := by
      cases t <;> simp [Token.kind] at hkind ⊢
    obtain ⟨hw, -, htext⟩ := (Kind.read_eq_some_iff (.quoted mark body) _ rest).mp hr
    obtain ⟨c, cs, rfl⟩ := List.exists_cons_of_ne_nil hne
    simp only [Token.text, List.cons_append, List.append_assoc, List.nil_append,
      List.cons.injEq] at htext
    obtain ⟨rfl, htext⟩ := htext
    have hout : mark ∉ ds := hm mark (by simp) hw.1
    -- the closing mark is not behind the first text, so the quoted value is within it
    rcases List.append_eq_append_iff.mp htext with ⟨more, hcs, hds⟩ | ⟨more, hbody, hds⟩
    · cases more with
      | nil =>
        have hin : mark ∈ [] ++ ds := hds ▸ List.mem_cons_self
        exact absurd hin hout
      | cons d more =>
        obtain ⟨rfl, -⟩ := List.cons.inj hds
        have hread : Kind.quoted.read (mark :: cs) = some (.quoted mark body, more) :=
          (Kind.read_eq_some_iff (.quoted mark body) _ more).mpr
            ⟨hw, fun _ _ => rfl, by simp [Token.text, hcs]⟩
        rw [h] at hread
        contradiction
    · exact absurd (by simp [hds]) hout

/-- The tokens of two texts with a blank between them. -/
theorem Shown.append_blank (ts us : List Token) (cs ds : List Char) (h : Shown ts cs)
    (h' : Shown us ds) (hm : MarksApart ts ds) : Shown (ts ++ us) (cs ++ ' ' :: ds) := by
  induction h with
  | done gap hg =>
    have hgap : ∀ c ∈ gap ++ [' '], isGap c = true :=
      List.forall_mem_append.mpr ⟨hg, by simp [isGap]⟩
    simpa using h'.gap us (gap ++ [' ']) ds hgap
  | next gap r t ts hg hw hs hq _ ih =>
    have hrest := ih fun u hu => hm u (List.mem_cons_of_mem t hu)
    have hstops : t.Stops (r ++ ' ' :: ds) := by
      cases r with
      | nil =>
        intro c hc
        obtain rfl : ' ' = c := Option.some.inj hc
        exact grows_blank t
      | cons c r => exact hs
    have hquoted : t.kind = .bareword → Kind.quoted.read (t.text ++ (r ++ ' ' :: ds)) = none := by
      intro hb
      obtain ⟨c, q, htext, -⟩ := t.text_opens hw
      rw [← List.append_assoc]
      refine quoted_none_append (t.text ++ r) (' ' :: ds) (by simp [htext]) (hq hb) ?_
      intro m hhead hmark
      have hout : m ∉ ds := hm t (by simp) hb m (by simpa [htext] using hhead) hmark
      have hblank : m ≠ ' ' := by
        rcases hmark with rfl | rfl <;> decide
      simp [hout, hblank]
    simpa using Shown.next gap (r ++ ' ' :: ds) t (ts ++ us) hg hw hstops hquoted hrest

def Written.Step.join (s t : Written.Step) : Written.Step :=
  ⟨s.type, s.predicates ++ t.predicates, s.pseudos ++ t.pseudos⟩

namespace Written

theorem settle_of_step (d : Draft) (hc : d.cursor = .step) : d.settle = d := by
  rw [Draft.settle, hc]

/-- The first token of a step tells whether it has a type. -/
theorem tokens_eq_cons (s : Step) (hs : s ≠ .blank) :
    (∃ type ts, s.type = some type ∧ s.tokens = type.token :: ts) ∨
      (s.type = none ∧ s.predicates ≠ [] ∧ ∃ ts, s.tokens = .openBracket :: ts) ∨
      (s.type = none ∧ s.predicates = [] ∧ ∃ ts, s.tokens = .colon :: ts) := by
  obtain ⟨type, predicates, pseudos⟩ := s
  cases type with
  | some type => exact Or.inl ⟨type, _, rfl, rfl⟩
  | none =>
    cases predicates with
    | cons p predicates => exact Or.inr (Or.inl ⟨rfl, by simp, _, rfl⟩)
    | nil =>
      cases pseudos with
      | cons p pseudos => exact Or.inr (Or.inr ⟨rfl, rfl, _, rfl⟩)
      | nil => exact absurd rfl hs

/-- A step may follow a whole one, and is then taken as if the draft had been settled before. -/
theorem takes_of_settle (d d' : Draft) (s : Step) (hs : s ≠ .blank) (hc : d.settle.cursor = .step)
    (h : Takes d.settle s.tokens d') : Takes d s.tokens d' := by
  obtain ⟨t, ts, htokens, hk⟩ : ∃ t ts, s.tokens = t :: ts ∧ t.kind ∈ Cursor.step.accepts := by
    rcases tokens_eq_cons s hs with ⟨type, ts, -, hts⟩ | ⟨-, -, ts, hts⟩ | ⟨-, -, ts, hts⟩
    · exact ⟨_, ts, hts, by cases type <;> simp [NodeType.token, Cursor.accepts, Token.kind]⟩
    · exact ⟨_, ts, hts, by simp [Cursor.accepts, Token.kind]⟩
    · exact ⟨_, ts, hts, by simp [Cursor.accepts, Token.kind]⟩
  rw [htokens] at h ⊢
  cases h with
  | next _ _ _ _ _ h =>
    rw [← push_of_settle d t hk] at h
    exact .next d d' t ts (accepts_of_settle d _ hc hk) h

theorem tokens_untyped (s : Step) (ht : s.type = none) :
    s.tokens = s.predicates.flatMap Predicate.tokens ++ s.pseudos.flatMap Pseudo.tokens := by
  simp [Step.tokens, ht]

/-- What has no type goes on with the step before it, where a predicate may still stand. -/
theorem takes_untyped (d : Draft) (s : Step) (hc : d.cursor = .step) (ht : s.type = none)
    (hp : ∀ p ∈ s.predicates, p.path ≠ []) (hs : s.predicates ≠ [] → d.step.pseudos = []) :
    ∃ d', Takes d s.tokens d' ∧ d'.settle = { d with step := d.step.join s } := by
  obtain ⟨done, query, tie, step, _⟩ := d
  obtain rfl : _ = Cursor.step := hc
  rw [tokens_untyped s ht]
  by_cases hnil : s.predicates = []
  · obtain ⟨d', htakes, hd'⟩ := takes_pseudos ⟨done, query, tie, step, .step⟩ s.pseudos rfl
    refine ⟨d', by simpa [hnil] using htakes, ?_⟩
    rw [hd', Step.join, hnil, List.append_nil]
    rfl
  · have hpredicates := takes_predicates ⟨done, query, tie, step, .step⟩ s.predicates rfl
      (hs hnil) hp
    obtain ⟨d', hpseudos, hd'⟩ := takes_pseudos ⟨done, query, tie,
      { step with predicates := step.predicates ++ s.predicates }, .step⟩ s.pseudos rfl
    exact ⟨d', hpredicates.append hpseudos, hd'⟩

/-- Behind a pseudo, a predicate begins a step. -/
theorem takes_opened (d : Draft) (s : Step) (hc : d.cursor = .step) (ht : s.type = none)
    (hp : ∀ p ∈ s.predicates, p.path ≠ []) (hs : d.step.pseudos ≠ []) (hne : s.predicates ≠ []) :
    ∃ d', Takes d s.tokens d' ∧
      d'.settle = { d.breakStep .descendant with step := s, cursor := .step } := by
  -- the bracket leads to where it would lead from a step of which nothing is written
  obtain ⟨d', htakes, hd'⟩ :=
    takes_untyped { d.breakStep .descendant with cursor := .step } s rfl ht hp fun _ => rfl
  have hpush : d.push .openBracket =
      Draft.push { d.breakStep .descendant with cursor := .step } .openBracket := by
    simp [Draft.push, settle_of_step, hc, Draft.openPredicate, hs, Draft.breakStep, Step.blank]
  have hblank : Step.blank.join s = s := by
    rw [Step.join, Step.blank, ← ht, List.nil_append, List.nil_append]
  have hopen : s.tokens = .openBracket :: s.tokens.tail := by
    obtain ⟨p, ps, hcons⟩ := List.exists_cons_of_ne_nil hne
    rw [tokens_untyped s ht, hcons]
    rfl
  rw [hopen] at htakes ⊢
  cases htakes with
  | next _ _ _ _ _ hrest =>
    rw [← hpush] at hrest
    refine ⟨d', .next d d' _ _ (by simp [hc, Cursor.accepts, Token.kind]) hrest, ?_⟩
    rw [hd', ← hblank]
    rfl

theorem takes_joined (d : Draft) (s : Step) (hc : d.settle.cursor = .step) (hs : s.Sound)
    (h : s.type = none ∧ (s.predicates ≠ [] → d.settle.step.pseudos = [])) :
    ∃ d', Takes d s.tokens d' ∧ d'.settle = { d.settle with step := d.settle.step.join s } := by
  obtain ⟨d', htakes, hd'⟩ := takes_untyped d.settle s hc h.1 hs.paths h.2
  exact ⟨d', takes_of_settle d d' s hs.written hc htakes, hd'⟩

theorem takes_descendant (d : Draft) (s : Step) (hc : d.settle.cursor = .step) (hs : s.Sound)
    (h : ¬(s.type = none ∧ (s.predicates ≠ [] → d.settle.step.pseudos = []))) :
    ∃ d', Takes d s.tokens d' ∧
      d'.settle = { d.settle.breakStep .descendant with step := s, cursor := .step } := by
  by_cases htype : s.type = none
  · obtain ⟨hne, hps⟩ : s.predicates ≠ [] ∧ d.settle.step.pseudos ≠ [] := by
      simpa [htype] using h
    obtain ⟨d', htakes, hd'⟩ := takes_opened d.settle s hc htype hs.paths hps hne
    exact ⟨d', takes_of_settle d d' s hs.written hc htakes, hd'⟩
  · exact takes_tied d .descendant s ⟨htype, hs.paths⟩ hc

/-- A draft that ends with one step has nothing else. -/
theorem settle_of_queries (d : Draft) (s : Step) (he : .ending ∈ d.cursor.accepts)
    (h : d.queries = [⟨s, []⟩]) : ∃ tie, d.settle = ⟨[], none, tie, s, .step⟩ := by
  have hcursor := settle_of_ending d he
  rw [Draft.queries, Draft.endQuery] at h
  generalize d.settle = e at h hcursor ⊢
  obtain ⟨done, query, tie, step, cursor⟩ := e
  obtain rfl : cursor = .step := hcursor
  cases done with
  | cons q done => simp at h
  | nil =>
    cases query with
    | some q => simp [Query.extend] at h
    | none =>
      have hstep : step = s := by simpa [Query.extend] using h
      exact ⟨tie, by rw [hstep]⟩

end Written

/-- A text of one step, with what its scan makes of it. -/
theorem exists_step_of_parse (text : List Char) (s : Step) (h : parse text = .ok ⟨[⟨s, []⟩]⟩) :
    ∃ w d tie, Takes .empty w.tokens d ∧ Shown w.tokens text ∧ (scan text).tokens = w.tokens ∧
      d.settle = ⟨[], none, tie, w, .step⟩ ∧ w.Sound ∧ w.meaning = .ok s := by
  obtain ⟨hrest, hend, hmeaning⟩ := (parse_eq_ok_iff text _).mp h
  obtain ⟨htakes, hshown, htokens, hsounds⟩ := tokens_of_scan text hrest hend
  obtain ⟨⟨w, rest⟩, qs, hq, hnil, hone⟩ := List.forall₂_cons_right_iff.mp hmeaning
  obtain rfl := List.forall₂_nil_right_iff.mp hnil
  obtain ⟨hmeans, hties⟩ := (query_meaning_eq_ok_iff _ _).mp hq
  obtain rfl := List.forall₂_nil_right_iff.mp hties
  obtain ⟨tie, hsettle⟩ := settle_of_queries _ w hend hone
  have hts : (scan text).tokens = w.tokens := by
    rw [← htokens, hone]
    simp [queriesTokens, Query.tokens]
  have hw : w.Sound := (hsounds ⟨w, []⟩ (by simp [hone])).first
  exact ⟨w, (scan text).draft, tie, hts ▸ htakes, hts ▸ hshown, hts, hsettle, hw, hmeans⟩

/-- A text whose tokens make a draft of one alternative. -/
theorem parse_of_takes (text : List Char) (ts : List Token) (d : Draft) (w : Written.Query)
    (q : Query) (ht : Takes .empty ts d) (hs : Shown ts text) (hc : d.settle.cursor = .step)
    (hw : d.queries = [w]) (hq : w.meaning = .ok q) : parse text = .ok ⟨[q]⟩ := by
  obtain ⟨hdraft, hrest⟩ := scanFrom_of_shown .empty d ts 0 text ht hs
  refine (parse_eq_ok_iff text _).mpr ⟨hrest, ?_, ?_⟩
  · rw [scan, hdraft]
    exact accepts_of_settle d .ending hc (by simp [Cursor.accepts])
  · rw [scan, hdraft, hw]
    exact .cons hq .nil

/-- One step made of two; the second has no type to add. -/
def Step.join (s t : Step) : Step :=
  ⟨s.type, s.predicates ++ t.predicates, s.pseudos ++ t.pseudos⟩

/-- Whether a text goes on with the step before it: it begins with a pseudo, or with a predicate where
no pseudo is before. -/
def Step.goesOn (s : Step) (text : List Char) : Bool :=
  match text.dropWhile isGap with
  | ':' :: _ => true
  | '[' :: _ => s.pseudos.isEmpty
  | _ => false

theorem meaning_join (v w : Written.Step) (s t : Step) (hs : v.meaning = .ok s)
    (ht : w.meaning = .ok t) : (v.join w).meaning = .ok (s.join t) := by
  obtain ⟨htype, hpredicates, hpseudos⟩ := (step_meaning_eq_ok_iff v s).mp hs
  obtain ⟨-, hpredicates', hpseudos'⟩ := (step_meaning_eq_ok_iff w t).mp ht
  refine (step_meaning_eq_ok_iff _ _).mpr ⟨htype, ?_, List.rel_append hpseudos hpseudos'⟩
  rw [Step.join, Written.Step.join, hpredicates, hpredicates', List.map_append]

theorem dropWhile_gap_of_shown (t : Token) (ts : List Token) (text : List Char)
    (h : Shown (t :: ts) text) : t.Whole ∧ ∃ r, text.dropWhile isGap = t.text ++ r := by
  cases h with
  | next gap r _ _ hg hw _ _ _ => exact ⟨hw, r, dropWhile_gap_text gap r t hg hw⟩

/-- The first token of a step can be told from the first character that is not skipped. -/
theorem goesOn_iff (s : Step) (w : Written.Step) (text : List Char) (hw : w ≠ .blank)
    (h : Shown w.tokens text) :
    s.goesOn text = true ↔ w.type = none ∧ (w.predicates ≠ [] → s.pseudos = []) := by
  rcases tokens_eq_cons w hw with ⟨type, ts, ht, hts⟩ | ⟨ht, hp, ts, hts⟩ | ⟨ht, hp, ts, hts⟩
  · obtain ⟨hwhole, r, hr⟩ := dropWhile_gap_of_shown _ ts text (hts ▸ h)
    refine iff_of_false ?_ fun hn => by simp [ht] at hn
    rw [Step.goesOn, hr]
    cases type with
    | star => exact Bool.false_ne_true
    | name n =>
      obtain ⟨c, cs, rfl, hc, -⟩ := hwhole
      have hcolon : c ≠ ':' := by
        rintro rfl
        exact absurd hc (by decide)
      have hbracket : c ≠ '[' := by
        rintro rfl
        exact absurd hc (by decide)
      simp [NodeType.token, Token.text, hcolon, hbracket]
  · obtain ⟨-, r, hr⟩ := dropWhile_gap_of_shown _ ts text (hts ▸ h)
    rw [Step.goesOn, hr]
    simp [ht, hp, Token.text]
  · obtain ⟨-, r, hr⟩ := dropWhile_gap_of_shown _ ts text (hts ▸ h)
    rw [Step.goesOn, hr]
    simp [ht, hp, Token.text]

/-- Two steps with a blank between them. They are tied as ancestor and descendant, unless the second
text goes on with the first step: a pseudo always does, and a predicate where no pseudo is before. A
bareword in the first text must not begin with a quotation mark that the second one would close. -/
theorem parse_blank (A B : List Char) (a b : Step) (ha : parse A = .ok ⟨[⟨a, []⟩]⟩)
    (hb : parse B = .ok ⟨[⟨b, []⟩]⟩) (hm : MarksApart (scan A).tokens B) :
    parse (A ++ ' ' :: B) =
      .ok ⟨[if a.goesOn B then ⟨a.join b, []⟩ else ⟨a, [(.descendant, b)]⟩]⟩ := by
  obtain ⟨v, d, tie, htakes, hshown, hts, hd, -, hmeans⟩ := exists_step_of_parse A a ha
  obtain ⟨w, -, -, -, hshown', -, -, hw, hmeans'⟩ := exists_step_of_parse B b hb
  have hc : d.settle.cursor = .step := by rw [hd]
  have hall : Shown (v.tokens ++ w.tokens) (A ++ ' ' :: B) :=
    hshown.append_blank _ _ _ _ hshown' (hts ▸ hm)
  -- the written step has its pseudos where the step that is meant has them
  have hpseudos : d.settle.step.pseudos = [] ↔ a.pseudos = [] := by
    have hmeaning := ((step_meaning_eq_ok_iff v a).mp hmeans).2.2
    rw [hd, ← List.length_eq_zero_iff, hmeaning.length_eq, List.length_eq_zero_iff]
  have hgoes := goesOn_iff a w B hw.written hshown'
  rw [← hpseudos] at hgoes
  by_cases hon : a.goesOn B = true
  · rw [if_pos hon]
    obtain ⟨d', htakes', hd'⟩ := takes_joined d w hc hw (hgoes.mp hon)
    rw [hd] at hd'
    refine parse_of_takes _ _ d' ⟨v.join w, []⟩ _ (htakes.append htakes') hall (by rw [hd']) ?_ ?_
    · rw [Draft.queries, hd']
      rfl
    · exact (query_meaning_eq_ok_iff _ _).mpr ⟨meaning_join v w a b hmeans hmeans', .nil⟩
  · rw [if_neg hon]
    obtain ⟨d', htakes', hd'⟩ := takes_descendant d w hc hw fun h => hon (hgoes.mpr h)
    rw [hd] at hd'
    refine parse_of_takes _ _ d' ⟨v, [(.descendant, w)]⟩ _ (htakes.append htakes') hall
      (by rw [hd']) ?_ ?_
    · rw [Draft.queries, hd']
      rfl
    · exact (query_meaning_eq_ok_iff _ _).mpr ⟨hmeans, .cons ⟨rfl, hmeans'⟩ .nil⟩

def calledFirst : Step := ⟨some "Call", [⟨["name"], some (.equal, "'x")⟩], [.pick .first]⟩

def optional : Step := ⟨none, [⟨["optional"], none⟩], []⟩

theorem parse_blank_optional :
    parse "Call[name='x]:first".toList = .ok ⟨[⟨calledFirst, []⟩]⟩ ∧
      parse "[optional]".toList = .ok ⟨[⟨optional, []⟩]⟩ ∧
      parse ("Call[name='x]:first".toList ++ ' ' :: "[optional]".toList) =
        .ok ⟨[⟨calledFirst, [(.descendant, optional)]⟩]⟩ := by
  have ha : parse "Call[name='x]:first".toList = .ok ⟨[⟨calledFirst, []⟩]⟩ := by decide +kernel
  have hb : parse "[optional]".toList = .ok ⟨[⟨optional, []⟩]⟩ := by decide +kernel
  have htokens : (scan "Call[name='x]:first".toList).tokens =
      [.name "Call".toList, .openBracket, .name "name".toList, .comparison .equal,
        .bareword "'x".toList, .closeBracket, .colon, .pseudoName "first".toList] := by
    decide +kernel
  have hm : MarksApart (scan "Call[name='x]:first".toList).tokens "[optional]".toList := by
    rw [htokens]
    simp [MarksApart, Token.kind, Token.text]
  exact ⟨ha, hb, parse_blank _ _ calledFirst optional ha hb hm⟩

/-- Behind a type alone, the blank is lost; and a quotation mark that is left open in one step is
closed by a mark in the next. -/
theorem blank_not_descendant :
    (parse "a".toList = .ok ⟨[⟨⟨some "a", [], []⟩, []⟩]⟩ ∧
      parse "[optional]".toList = .ok ⟨[⟨optional, []⟩]⟩ ∧
      parse "a [optional]".toList = .ok ⟨[⟨⟨some "a", [⟨["optional"], none⟩], []⟩, []⟩]⟩) ∧
      parse "[a='x]".toList = .ok ⟨[⟨⟨none, [⟨["a"], some (.equal, "'x")⟩], []⟩, []⟩]⟩ ∧
      parse "b[c=y']".toList = .ok ⟨[⟨⟨some "b", [⟨["c"], some (.equal, "y'")⟩], []⟩, []⟩]⟩ ∧
      parse "[a='x] b[c=y']".toList =
        .ok ⟨[⟨⟨none, [⟨["a"], some (.equal, "x] b[c=y")⟩], []⟩, []⟩]⟩ := by
  refine ⟨⟨?_, ?_, ?_⟩, ?_, ?_, ?_⟩ <;> decide +kernel

end TreeSelect.Selector
