import TreeSelect.Proofs.SelectorScan

namespace TreeSelect.Selector.Written

def dotted (path : List (List Char)) : List Token :=
  List.intercalate [.dot] (path.map fun name => [.name name])

def Value.token : Value → Token
  | .quoted mark body => .quoted mark body
  | .bare text => .bareword text

def Predicate.tokens (p : Predicate) : List Token :=
  .openBracket :: dotted p.path ++
    (match p.test with | none => [] | some (c, v) => [.comparison c, v.token]) ++ [.closeBracket]

def Pseudo.tokens (p : Pseudo) : List Token :=
  .colon :: .pseudoName p.name ::
    match p.index with | none => [] | some digits => [.openParen, .int digits, .closeParen]

def NodeType.token : NodeType → Token
  | .star => .star
  | .name text => .name text

def Step.tokens (s : Step) : List Token :=
  (s.type.map NodeType.token).toList ++ s.predicates.flatMap Predicate.tokens ++
    s.pseudos.flatMap Pseudo.tokens

def tieTokens : Combinator → List Token
  | .descendant => []
  | c => [.combinator c]

def Query.tokens (q : Query) : List Token :=
  q.first.tokens ++ q.rest.flatMap fun (c, s) => tieTokens c ++ s.tokens

theorem mem_tokens_of_predicate (s : Step) (p : Predicate) (hp : p ∈ s.predicates) (t : Token)
    (ht : t ∈ p.tokens) : t ∈ s.tokens := by
  simp only [Step.tokens, List.mem_append, List.mem_flatMap]
  exact .inl (.inr ⟨p, hp, ht⟩)

theorem mem_tokens_of_pseudo (s : Step) (p : Pseudo) (hp : p ∈ s.pseudos) (t : Token)
    (ht : t ∈ p.tokens) : t ∈ s.tokens := by
  simp only [Step.tokens, List.mem_append, List.mem_flatMap]
  exact .inr ⟨p, hp, ht⟩

theorem mem_tokens_of_tied (q : Query) (v : Combinator × Step) (hv : v ∈ q.rest) (t : Token)
    (ht : t ∈ v.2.tokens) : t ∈ q.tokens :=
  List.mem_append_right _ (List.mem_flatMap.mpr ⟨v, hv, List.mem_append_right _ ht⟩)

/-- The tokens of all that a draft has before its present step. -/
def Draft.before (d : Draft) : List Token :=
  d.done.flatMap (fun q => q.tokens ++ [.comma]) ++
    match d.query with | none => [] | some q => q.tokens ++ tieTokens d.tie

def Cursor.tokens : Cursor → List Token
  | .gap => []
  | .step => []
  | .path names => .openBracket :: names.flatMap fun name => [.name name, .dot]
  | .attribute names => .openBracket :: dotted names
  | .comparison names c => .openBracket :: dotted names ++ [.comparison c]
  | .value names c v => .openBracket :: dotted names ++ [.comparison c, v.token]
  | .colon => [.colon]
  | .pseudo name => [.colon, .pseudoName name]
  | .openParen name => [.colon, .pseudoName name, .openParen]
  | .index name digits => [.colon, .pseudoName name, .openParen, .int digits]

def Draft.tokens (d : Draft) : List Token :=
  d.before ++ d.step.tokens ++ d.cursor.tokens

/-- Something is written of the step, and each of its predicates names an attribute. -/
structure Step.Sound (s : Step) : Prop where
  written : s ≠ .blank
  paths : ∀ p ∈ s.predicates, p.path ≠ []

structure Query.Sound (q : Query) : Prop where
  first : q.first.Sound
  rest : ∀ t ∈ q.rest, t.2.Sound

/-- What is written of the present step, as far as the last token tells. -/
def Cursor.Fits : Cursor → Step → Prop
  | .gap, s => s = .blank
  | .step, s => s ≠ .blank
  | .path _, s => s.pseudos = []
  | .attribute names, s => s.pseudos = [] ∧ names ≠ []
  | .comparison names _, s => s.pseudos = [] ∧ names ≠ []
  | .value names _ _, s => s.pseudos = [] ∧ names ≠ []
  | _, _ => True

/-- The invariant of drafts. -/
structure Draft.Sound (d : Draft) : Prop where
  done : ∀ q ∈ d.done, q.Sound
  query : ∀ q ∈ d.query, q.Sound
  paths : ∀ p ∈ d.step.predicates, p.path ≠ []
  fits : d.cursor.Fits d.step

theorem intercalate_concat {α : Type} (sep x : List α) (xs : List (List α)) :
    List.intercalate sep (xs ++ [x]) = xs.flatMap (· ++ sep) ++ x := by
  induction xs with
  | nil => simp
  | cons y ys ih =>
    rw [List.cons_append, List.intercalate_cons_of_ne_nil (by simp), ih, List.flatMap_cons]
    simp only [List.append_assoc]

/-- What respects appending may be done before the lists are put together. -/
theorem apply_intercalate {α β : Type} (f : List α → List β) (hnil : f [] = [])
    (happ : ∀ x y, f (x ++ y) = f x ++ f y) (sep : List α) (xs : List (List α)) :
    f (List.intercalate sep xs) = List.intercalate (f sep) (xs.map f) := by
  induction xs with
  | nil => exact hnil
  | cons x xs ih =>
    cases xs with
    | nil => simp
    | cons y ys =>
      rw [List.intercalate_cons_cons, happ, happ, ih]
      simp only [List.map_cons, List.intercalate_cons_cons]

theorem mem_intercalate {α : Type} (sep x : List α) (xs : List (List α)) (h : x ∈ xs) (a : α)
    (ha : a ∈ x) : a ∈ List.intercalate sep xs := by
  induction xs with
  | nil => contradiction
  | cons y ys ih =>
    rcases List.mem_cons.mp h with rfl | h
    · cases ys with
      | nil => simpa using ha
      | cons z zs => simp [ha]
    · rw [List.intercalate_cons_of_ne_nil (List.ne_nil_of_mem h)]
      exact List.mem_append_right _ (ih h)

theorem mem_dotted (names : List (List Char)) (n : List Char) (h : n ∈ names) :
    .name n ∈ dotted names :=
  mem_intercalate _ _ _ (List.mem_map_of_mem h) _ (by simp)

theorem dotted_concat (path : List (List Char)) (name : List Char) :
    dotted (path ++ [name]) = (path.flatMap fun n => [.name n, .dot]) ++ [.name name] := by
  rw [dotted, List.map_append, List.map_singleton, intercalate_concat, List.flatMap_map]
  rfl

theorem extend_tokens (query : Option Query) (tie : Combinator) (step : Step) :
    (Query.extend query tie step).tokens =
      (match query with | none => [] | some q => q.tokens ++ tieTokens tie) ++ step.tokens := by
  cases query with
  | none => simp [Query.extend, Query.tokens]
  | some q => simp [Query.extend, Query.tokens]

theorem extend_sound (query : Option Query) (tie : Combinator) (step : Step)
    (hq : ∀ q ∈ query, q.Sound) (hs : step.Sound) : (Query.extend query tie step).Sound := by
  cases query with
  | none => exact ⟨hs, by simp [Query.extend]⟩
  | some q =>
    obtain ⟨hfirst, hrest⟩ := hq q rfl
    refine ⟨hfirst, fun t ht => ?_⟩
    rcases List.mem_append.mp ht with ht | ht
    · exact hrest t ht
    · rw [List.mem_singleton.mp ht]
      exact hs

/-- The next draft keeps the invariant and has one token more. -/
structure Draft.Adds (d : Draft) (t : Token) (e : Draft) : Prop where
  sound : e.Sound
  tokens : e.tokens = d.tokens ++ [t]

theorem breakStep_tokens (d : Draft) (c : Combinator) :
    (d.breakStep c).tokens = d.before ++ d.step.tokens ++ tieTokens c := by
  simp [Draft.tokens, Draft.before, Draft.breakStep, extend_tokens, Step.blank, Step.tokens,
    Cursor.tokens]

theorem breakStep_sound (d : Draft) (c : Combinator) (h : d.Sound) (hs : d.step ≠ .blank) :
    (d.breakStep c).Sound where
  done := h.done
  query := by
    intro q hq
    rw [← Option.some.inj hq]
    exact extend_sound d.query d.tie d.step h.query ⟨hs, h.paths⟩
  paths := by simp [Draft.breakStep, Step.blank]
  fits := rfl

theorem cursor_adds (d : Draft) (c : Cursor) (t : Token) (h : d.Sound) (hc : c.Fits d.step)
    (ht : c.tokens = d.cursor.tokens ++ [t]) : d.Adds t { d with cursor := c } :=
  ⟨⟨h.done, h.query, h.paths, hc⟩, by simp [Draft.tokens, Draft.before, ht]⟩

theorem addPredicate_adds (d : Draft) (p : Predicate) (t : Token) (h : d.Sound)
    (hs : d.step.pseudos = []) (hp : p.path ≠ []) (ht : p.tokens = d.cursor.tokens ++ [t]) :
    d.Adds t (d.addPredicate p) where
  sound := by
    refine ⟨h.done, h.query, ?_, by simp [Draft.addPredicate, Cursor.Fits, Step.blank]⟩
    intro p' hp'
    rcases List.mem_append.mp hp' with hp' | hp'
    · exact h.paths p' hp'
    · rw [List.mem_singleton.mp hp']
      exact hp
  tokens := by
    simp [Draft.tokens, Draft.before, Draft.addPredicate, Step.tokens, hs, Cursor.tokens, ht]

theorem addPseudo_tokens (d : Draft) (p : Pseudo) :
    (d.addPseudo p).tokens = d.before ++ d.step.tokens ++ p.tokens := by
  simp [Draft.tokens, Draft.before, Draft.addPseudo, Step.tokens, Cursor.tokens]

theorem addPseudo_sound (d : Draft) (p : Pseudo) (h : d.Sound) : (d.addPseudo p).Sound :=
  ⟨h.done, h.query, h.paths, by simp [Draft.addPseudo, Cursor.Fits, Step.blank]⟩

theorem endQuery_adds (d : Draft) (h : d.Sound) (hc : d.cursor = .step) :
    d.Adds .comma d.endQuery := by
  have hfits : d.step ≠ .blank := by simpa [hc, Cursor.Fits] using h.fits
  refine ⟨⟨?_, by simp [Draft.endQuery, Draft.empty], by simp [Draft.endQuery, Draft.empty,
    Step.blank], rfl⟩, ?_⟩
  · intro q hq
    rcases List.mem_append.mp hq with hq | hq
    · exact h.done q hq
    · rw [List.mem_singleton.mp hq]
      exact extend_sound d.query d.tie d.step h.query ⟨hfits, h.paths⟩
  · simp [Draft.tokens, Draft.before, Draft.endQuery, Draft.empty, hc, extend_tokens, Step.blank,
      Step.tokens, Cursor.tokens]

theorem addType_adds (d : Draft) (type : NodeType) (h : d.Sound)
    (hc : d.cursor = .gap ∨ d.cursor = .step) : d.Adds type.token (d.addType type) := by
  have hstep : (⟨some type, [], []⟩ : Step) ≠ .blank := by simp [Step.blank]
  rcases hc with hc | hc
  · have hblank : d.step = .blank := by simpa [hc, Cursor.Fits] using h.fits
    have hadd : d.addType type = { d with step := ⟨some type, [], []⟩, cursor := .step } := by
      simp [Draft.addType, hc]
    rw [hadd]
    refine ⟨⟨h.done, h.query, by simp, hstep⟩, ?_⟩
    simp [Draft.tokens, Draft.before, hblank, hc, Step.tokens, Step.blank, Cursor.tokens]
  · have hfits : d.step ≠ .blank := by simpa [hc, Cursor.Fits] using h.fits
    have hadd : d.addType type =
        { d.breakStep .descendant with step := ⟨some type, [], []⟩, cursor := .step } := by
      simp [Draft.addType, hc]
    rw [hadd]
    obtain ⟨hdone, hquery, -, -⟩ := breakStep_sound d .descendant h hfits
    refine ⟨⟨hdone, hquery, by simp, hstep⟩, ?_⟩
    simp [Draft.tokens, Draft.before, Draft.breakStep, extend_tokens, hc, Step.tokens, tieTokens,
      Cursor.tokens]

theorem openPredicate_adds (d : Draft) (h : d.Sound)
    (hc : d.cursor = .gap ∨ d.cursor = .step) : d.Adds .openBracket d.openPredicate := by
  have hnil : d.cursor.tokens = [] := by rcases hc with hc | hc <;> rw [hc] <;> rfl
  -- a predicate behind a pseudo begins a step, and so ends the present one without a sign
  by_cases hs : d.step.pseudos = []
  · have hopen : d.openPredicate = { d with cursor := .path [] } := by
      simp [Draft.openPredicate, hs]
    rw [hopen]
    refine ⟨⟨h.done, h.query, h.paths, hs⟩, ?_⟩
    simp [Draft.tokens, Draft.before, hnil]
    simp [Cursor.tokens]
  · have hfits : d.step ≠ .blank := by
      intro hblank
      exact hs (by rw [hblank]; rfl)
    have hopen : d.openPredicate = { d.breakStep .descendant with cursor := .path [] } := by
      simp [Draft.openPredicate, hs]
    rw [hopen]
    obtain ⟨hdone, hquery, hpaths, -⟩ := breakStep_sound d .descendant h hfits
    refine ⟨⟨hdone, hquery, hpaths, rfl⟩, ?_⟩
    have hold : d.tokens = d.before ++ d.step.tokens := by simp [Draft.tokens, hnil]
    rw [hold]
    simp [Draft.tokens, Draft.before, Draft.breakStep, extend_tokens, Step.tokens, Step.blank,
      tieTokens, Cursor.tokens]

theorem settle_sound (d : Draft) (h : d.Sound) :
    d.settle.Sound ∧ d.settle.tokens = d.tokens := by
  obtain ⟨done, query, tie, step, cursor⟩ := d
  cases cursor with
  | pseudo name =>
    refine ⟨addPseudo_sound _ ⟨name, none⟩ h, (addPseudo_tokens _ ⟨name, none⟩).trans ?_⟩
    simp [Draft.tokens, Draft.before, Pseudo.tokens, Cursor.tokens]
  | _ => exact ⟨h, rfl⟩

section
attribute [local simp] Draft.push

/-- A token that may begin a step, or follow a whole one, is put behind the tokens before it. -/
theorem push_adds_idle (d : Draft) (t : Token) (h : d.Sound) (hw : t.Whole)
    (hc : d.cursor = .gap ∧ t.kind ∈ Cursor.gap.accepts ∨
      d.cursor = .step ∧ t.kind ∈ Cursor.step.accepts) : d.Adds t (d.push t) := by
  have hidle : d.cursor = .gap ∨ d.cursor = .step := hc.imp And.left And.left
  have hsettle : d.settle = d := by rcases hidle with hc | hc <;> simp [Draft.settle, hc]
  -- what may begin a step may also follow one
  have hstep : t.kind ∈ Cursor.step.accepts := by
    rcases hc with ⟨-, ht⟩ | ⟨-, ht⟩
    · exact List.mem_append_left [.combinator, .comma, .ending] ht
    · exact ht
  cases t with
  | star =>
    have hpush : d.push .star = d.addType .star := by
      rcases hidle with hc | hc <;> simp [hc, hsettle]
    exact hpush ▸ addType_adds d .star h hidle
  | name text =>
    have hpush : d.push (.name text) = d.addType (.name text) := by
      rcases hidle with hc | hc <;> simp [hc, hsettle]
    exact hpush ▸ addType_adds d (.name text) h hidle
  | openBracket =>
    have hpush : d.push .openBracket = d.openPredicate := by
      rcases hidle with hc | hc <;> simp [hc, hsettle]
    exact hpush ▸ openPredicate_adds d h hidle
  | colon =>
    have hpush : d.push .colon = { d with cursor := .colon } := by
      rcases hidle with hc | hc <;> simp [hc, hsettle]
    refine hpush ▸ cursor_adds d .colon .colon h trivial ?_
    rcases hidle with hc | hc <;> simp [hc, Cursor.tokens]
  | combinator c =>
    rcases hc with ⟨-, ht⟩ | ⟨hc, -⟩
    · simp [Cursor.accepts, Token.kind] at ht
    · have hpush : d.push (.combinator c) = d.breakStep c := by
        simp [hc, hsettle]
      have hfits : d.step ≠ .blank := by simpa [hc, Cursor.Fits] using h.fits
      refine hpush ▸ ⟨breakStep_sound d c h hfits, (breakStep_tokens d c).trans ?_⟩
      cases c with
      | descendant => exact absurd rfl hw
      | child | adjacent | sibling => simp [Draft.tokens, hc, Cursor.tokens, tieTokens]
  | comma =>
    rcases hc with ⟨-, ht⟩ | ⟨hc, -⟩
    · simp [Cursor.accepts, Token.kind] at ht
    · have hpush : d.push .comma = d.endQuery := by simp [hc, hsettle]
      exact hpush ▸ endQuery_adds d h hc
  | _ => simp [Cursor.accepts, Token.kind] at hstep

theorem push_adds_path (d : Draft) (t : Token) (names : List (List Char)) (h : d.Sound)
    (hc : d.cursor = .path names) (ht : t.kind ∈ (Cursor.path names).accepts) :
    d.Adds t (d.push t) := by
  have hs : d.step.pseudos = [] := by simpa [hc, Cursor.Fits] using h.fits
  cases t <;> simp [Cursor.accepts, Token.kind] at ht
  case name text =>
    have hpush : d.push (.name text) = { d with cursor := .attribute (names ++ [text]) } := by
      simp [hc]
    refine hpush ▸ cursor_adds d _ (.name text) h ⟨hs, by simp⟩ ?_
    simp [hc, Cursor.tokens, dotted_concat]

theorem push_adds_attribute (d : Draft) (t : Token) (names : List (List Char)) (h : d.Sound)
    (hc : d.cursor = .attribute names) (ht : t.kind ∈ (Cursor.attribute names).accepts) :
    d.Adds t (d.push t) := by
  have hfits : d.step.pseudos = [] ∧ names ≠ [] := by simpa [hc, Cursor.Fits] using h.fits
  cases t <;> simp [Cursor.accepts, Token.kind] at ht
  case dot =>
    have hpush : d.push .dot = { d with cursor := .path names } := by simp [hc]
    -- behind a dot the last name counts with the earlier ones, which are each told with their dot
    obtain ⟨before, last, rfl⟩ := (List.eq_nil_or_concat names).resolve_left hfits.2
    refine hpush ▸ cursor_adds d _ .dot h hfits.1 ?_
    simp [hc, Cursor.tokens, dotted_concat]
  case comparison c =>
    have hpush : d.push (.comparison c) = { d with cursor := .comparison names c } := by
      simp [hc]
    refine hpush ▸ cursor_adds d _ (.comparison c) h hfits ?_
    simp [hc, Cursor.tokens]
  case closeBracket =>
    have hpush : d.push .closeBracket = d.addPredicate ⟨names, none⟩ := by simp [hc]
    refine hpush ▸ addPredicate_adds d _ .closeBracket h hfits.1 hfits.2 ?_
    simp [hc, Cursor.tokens, Predicate.tokens]

theorem push_adds_comparison (d : Draft) (t : Token) (names : List (List Char)) (c : Comparison)
    (h : d.Sound) (hc : d.cursor = .comparison names c)
    (ht : t.kind ∈ (Cursor.comparison names c).accepts) : d.Adds t (d.push t) := by
  have hfits : d.step.pseudos = [] ∧ names ≠ [] := by simpa [hc, Cursor.Fits] using h.fits
  cases t <;> simp [Cursor.accepts, Token.kind] at ht
  case quoted mark body =>
    have hpush : d.push (.quoted mark body) =
        { d with cursor := .value names c (.quoted mark body) } := by
      simp [hc]
    refine hpush ▸ cursor_adds d _ (.quoted mark body) h hfits ?_
    simp [hc, Cursor.tokens, Value.token]
  case bareword text =>
    have hpush : d.push (.bareword text) = { d with cursor := .value names c (.bare text) } := by
      simp [hc]
    refine hpush ▸ cursor_adds d _ (.bareword text) h hfits ?_
    simp [hc, Cursor.tokens, Value.token]

theorem push_adds_value (d : Draft) (t : Token) (names : List (List Char)) (c : Comparison)
    (v : Value) (h : d.Sound) (hc : d.cursor = .value names c v)
    (ht : t.kind ∈ (Cursor.value names c v).accepts) : d.Adds t (d.push t) := by
  obtain ⟨hs, hne⟩ : d.step.pseudos = [] ∧ names ≠ [] := by simpa [hc, Cursor.Fits] using h.fits
  cases t <;> simp [Cursor.accepts, Token.kind] at ht
  case closeBracket =>
    have hpush : d.push .closeBracket = d.addPredicate ⟨names, some (c, v)⟩ := by
      simp [hc]
    refine hpush ▸ addPredicate_adds d _ .closeBracket h hs hne ?_
    simp [hc, Cursor.tokens, Predicate.tokens]

theorem push_settle (d : Draft) (t : Token) (name : List Char) (hc : d.cursor = .pseudo name)
    (ht : t.kind ∈ Cursor.step.accepts) : d.push t = d.settle.push t := by
  cases t <;> simp [Cursor.accepts, Token.kind] at ht <;> simp [Draft.settle, hc]

theorem push_adds_pseudo (d : Draft) (t : Token) (name : List Char) (h : d.Sound) (hw : t.Whole)
    (hc : d.cursor = .pseudo name) (ht : t.kind ∈ (Cursor.pseudo name).accepts) :
    d.Adds t (d.push t) := by
  by_cases hopen : t = .openParen
  · have hpush : d.push .openParen = { d with cursor := .openParen name } := by
      simp [hc]
    refine hopen ▸ hpush ▸ cursor_adds d _ .openParen h trivial ?_
    simp [hc, Cursor.tokens]
  · -- without an argument the pseudo is whole, and the token stands behind a whole step
    have hstep : t.kind ∈ Cursor.step.accepts := by
      refine (List.mem_cons.mp ht).resolve_left fun hkind => hopen ?_
      cases t <;> simp [Token.kind] at hkind ⊢
    have hcursor : d.settle.cursor = .step := by simp [Draft.settle, hc]
    have hpush : d.push t = d.settle.push t := push_settle d t name hc hstep
    obtain ⟨hsettled, htokens⟩ := settle_sound d h
    obtain ⟨hsound, hadd⟩ := push_adds_idle d.settle t hsettled hw (.inr ⟨hcursor, hstep⟩)
    exact hpush ▸ ⟨hsound, htokens ▸ hadd⟩

/-- Each token that a draft takes is put behind the tokens it had before. -/
theorem push_adds (d : Draft) (t : Token) (h : d.Sound) (hw : t.Whole)
    (ht : t.kind ∈ d.cursor.accepts) : d.Adds t (d.push t) := by
  cases hc : d.cursor <;> rw [hc] at ht
  case gap => exact push_adds_idle d t h hw (.inl ⟨hc, ht⟩)
  case step => exact push_adds_idle d t h hw (.inr ⟨hc, ht⟩)
  case path names => exact push_adds_path d t names h hc ht
  case comparison names c => exact push_adds_comparison d t names c h hc ht
  case value names c v => exact push_adds_value d t names c v h hc ht
  case colon =>
    cases t <;> simp [Cursor.accepts, Token.kind] at ht
    case pseudoName text =>
      have hpush : d.push (.pseudoName text) = { d with cursor := .pseudo text } := by
        simp [hc]
      exact hpush ▸ cursor_adds d _ (.pseudoName text) h trivial (by simp [hc, Cursor.tokens])
  case pseudo name => exact push_adds_pseudo d t name h hw hc ht
  case openParen name =>
    cases t <;> simp [Cursor.accepts, Token.kind] at ht
    case int digits =>
      have hpush : d.push (.int digits) = { d with cursor := .index name digits } := by
        simp [hc]
      exact hpush ▸ cursor_adds d _ (.int digits) h trivial (by simp [hc, Cursor.tokens])
  case index name digits =>
    cases t <;> simp [Cursor.accepts, Token.kind] at ht
    case closeParen =>
      have hpush : d.push .closeParen = d.addPseudo ⟨name, some digits⟩ := by
        simp [hc]
      refine hpush ▸ ⟨addPseudo_sound d _ h, (addPseudo_tokens d _).trans ?_⟩
      simp [Draft.tokens, hc, Cursor.tokens, Pseudo.tokens]
  next names => exact push_adds_attribute d t names h hc ht

end

/-- All that a draft takes is told by what it has written, in order. -/
theorem takes_tokens (d d' : Draft) (ts : List Token) (ht : Takes d ts d') (h : d.Sound)
    (hw : ∀ t ∈ ts, t.Whole) : d'.Sound ∧ d'.tokens = d.tokens ++ ts := by
  induction ht with
  | done d => exact ⟨h, by simp⟩
  | next d d' t ts ht _ ih =>
    obtain ⟨hsound, htokens⟩ := push_adds d t h (hw t (by simp)) ht
    obtain ⟨hsound', htokens'⟩ := ih hsound fun u hu => hw u (List.mem_cons_of_mem t hu)
    exact ⟨hsound', by rw [htokens', htokens, List.append_assoc, List.singleton_append]⟩

def queriesTokens (qs : List Query) : List Token :=
  List.intercalate [.comma] (qs.map Query.tokens)

theorem empty_sound : Draft.empty.Sound :=
  ⟨by simp [Draft.empty], by simp [Draft.empty], by simp [Draft.empty, Step.blank], rfl⟩

theorem settle_of_ending (d : Draft) (he : .ending ∈ d.cursor.accepts) :
    d.settle.cursor = .step := by
  cases hc : d.cursor <;> simp [hc, Cursor.accepts] at he <;> simp [Draft.settle, hc]

/-- The alternatives of a draft that may end here are all that it took, and each is sound. -/
theorem queries_tokens (d : Draft) (h : d.Sound) (he : .ending ∈ d.cursor.accepts) :
    queriesTokens d.queries = d.tokens ∧ ∀ q ∈ d.queries, q.Sound := by
  obtain ⟨hsound, htokens⟩ := settle_sound d h
  have hcursor := settle_of_ending d he
  have hend := (endQuery_adds d.settle hsound hcursor).sound.done
  refine ⟨?_, hend⟩
  rw [← htokens]
  simp [queriesTokens, Draft.queries, Draft.endQuery, intercalate_concat, extend_tokens,
    Draft.tokens, Draft.before, hcursor, Cursor.tokens, List.flatMap_map]

end TreeSelect.Selector.Written
