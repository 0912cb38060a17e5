import TreeSelect.Proofs.SelectorDraft
import TreeSelect.Proofs.SelectorMeaning

namespace TreeSelect.Selector

/-- The words of several parts, each spelled in its turn. -/
def Each {α : Type} (R : α → List (List Char) → Prop) (xs : List α) (words : List (List Char)) :
    Prop :=
  ∃ parts, List.Forall₂ R xs parts ∧ words = parts.flatten

/-- A value stands in quotes, with backslashes that are taken away, or as a bareword. -/
inductive SpellsValue : String → List Char → Prop
  | quoted (mark : Char) (body value : List Char) (hm : mark = '"' ∨ mark = '\'')
      (h : Unescapes mark body value) :
      SpellsValue (String.ofList value) (mark :: body ++ [mark])
  | bare (word : List Char) (hne : word ≠ []) (h : ∀ c ∈ word, isBare c = true) :
      SpellsValue (String.ofList word) word

/-- Names with dots between them. -/
structure SpellsPath (path : List String) (words : List (List Char)) : Prop where
  ne_nil : path ≠ []
  names : ∀ n ∈ path, IsWord isNameStart isNameChar n.toList
  words : words = List.intercalate [['.']] (path.map fun n => [n.toList])

inductive SpellsPredicate : Predicate → List (List Char) → Prop
  | present (path : List String) (ws : List (List Char)) (hp : SpellsPath path ws) :
      SpellsPredicate ⟨path, none⟩ (['['] :: ws ++ [[']']])
  | compared (path : List String) (ws : List (List Char)) (c : Comparison) (value : String)
      (word : List Char) (hp : SpellsPath path ws) (hv : SpellsValue value word) :
      SpellsPredicate ⟨path, some (c, value)⟩ (['['] :: ws ++ [c.sign, word, [']']])

/-- The name may be in letters of any case; a number in parentheses stands behind the names that
have one, and behind no other. -/
inductive SpellsPseudo : Pseudo → List (List Char) → Prop
  | plain (p : Pseudo) (name : List Char) (hn : name.map Char.toLower = p.name.toList)
      (hi : p.index = none) : SpellsPseudo p [[':'], name]
  | counted (p : Pseudo) (name digits : List Char) (hn : name.map Char.toLower = p.name.toList)
      (hne : digits ≠ []) (hd : ∀ c ∈ digits, c.isDigit = true)
      (hi : p.index = some (Nat.ofDigitChars 10 digits 0)) :
      SpellsPseudo p [[':'], name, ['('], digits, [')']]

inductive SpellsType : Option String → List (List Char) → Prop
  | star : SpellsType none [['*']]
  | name (n : String) (h : IsWord isNameStart isNameChar n.toList) : SpellsType (some n) [n.toList]

/-- The type comes first, then the predicates and then the pseudos. The star may be left out where a
predicate or a pseudo follows. -/
inductive SpellsStep : Step → List (List Char) → Prop
  | typed (s : Step) (ws ps qs : List (List Char)) (ht : SpellsType s.type ws)
      (hp : Each SpellsPredicate s.predicates ps) (hq : Each SpellsPseudo s.pseudos qs) :
      SpellsStep s (ws ++ ps ++ qs)
  | untyped (s : Step) (ps qs : List (List Char)) (ht : s.type = none)
      (hne : s.predicates ≠ [] ∨ s.pseudos ≠ []) (hp : Each SpellsPredicate s.predicates ps)
      (hq : Each SpellsPseudo s.pseudos qs) : SpellsStep s (ps ++ qs)

/-- Descendants have no sign between them. -/
def tieWords : Combinator → List (List Char)
  | .descendant => []
  | c => [c.sign]

def SpellsTied (t : Combinator × Step) (words : List (List Char)) : Prop :=
  ∃ ws, SpellsStep t.2 ws ∧ words = tieWords t.1 ++ ws

def SpellsQuery (q : Query) (words : List (List Char)) : Prop :=
  ∃ ws more, SpellsStep q.first ws ∧ Each SpellsTied q.rest more ∧ words = ws ++ more

/-- Alternatives with commas between them; there is at least one. -/
def SpellsList (l : SelectorList) (words : List (List Char)) : Prop :=
  l.queries ≠ [] ∧
    ∃ parts, List.Forall₂ SpellsQuery l.queries parts ∧ words = List.intercalate [[',']] parts

/-- Texts in which words stand in order, with gaps between them. No two characters of names touch
unless they are of one word. -/
inductive Spaced : List (List Char) → List Char → Prop
  | done (gap : List Char) (hg : ∀ c ∈ gap, isGap c = true) : Spaced [] gap
  | next (gap word r : List Char) (words : List (List Char)) (hg : ∀ c ∈ gap, isGap c = true)
      (ht : ∀ c ∈ word.getLast?, ∀ d ∈ r.head?, isNameChar c = true → isNameChar d = false)
      (h : Spaced words r) : Spaced (word :: words) (gap ++ (word ++ r))

/-- The text spells the selectors. -/
def Spells (text : List Char) (l : SelectorList) : Prop :=
  ∃ words, SpellsList l words ∧ Spaced words text

theorem toNat_of_isNameChar (c : Char) (h : isNameChar c = true) :
    48 ≤ c.toNat ∧ c.toNat ≤ 57 ∨ 65 ≤ c.toNat ∧ c.toNat ≤ 90 ∨ c.toNat = 95 ∨
      97 ≤ c.toNat ∧ c.toNat ≤ 122 := by
  have hle (m n : UInt32) (h : m ≤ n) : m.toNat ≤ n.toNat := UInt32.le_iff_toNat_le.mp h
  rcases Bool.or_eq_true_iff.mp h with h | h
  · rcases Bool.or_eq_true_iff.mp h with h | h
    · rcases Bool.or_eq_true_iff.mp h with h | h
      · obtain ⟨hl, hu⟩ : c.val ≥ 'A'.val ∧ c.val ≤ 'Z'.val := of_decide_eq_true h
        exact .inr (.inl ⟨hle _ _ hl, hle _ _ hu⟩)
      · obtain ⟨hl, hu⟩ := Bool.and_eq_true_iff.mp h
        exact .inr (.inr (.inr ⟨hle _ _ (of_decide_eq_true hl), hle _ _ (of_decide_eq_true hu)⟩))
    · exact .inl (Char.isDigit_iff_toNat.mp h)
  · obtain rfl : c = '_' := beq_iff_eq.mp h
    exact .inr (.inr (.inl rfl))

theorem isBare_of_isNameChar (c : Char) (h : isNameChar c = true) : isBare c = true := by
  have hrange := toNat_of_isNameChar c h
  have hblank : Text.isBlank c = false := by
    simp [Text.isBlank]
    omega
  have hclose : c ≠ ']' ∧ c ≠ ')' := by
    constructor <;> rintro rfl <;> simp at hrange
  simp [isBare, hclose, hblank]

/-- The last character of a token and the one behind it are not both of names. -/
theorem Token.text_apart (t : Token) (r : List Char) (hw : t.Whole) (hs : t.Stops r)
    (hi : t.kind ≠ .int) :
    ∀ c ∈ t.text.getLast?, ∀ d ∈ r.head?, isNameChar c = true → isNameChar d = false := by
  intro c hc d hd hname
  have hstop := hs d hd
  cases t with
  | name text => exact hstop
  | pseudoName text => exact (Bool.or_eq_false_iff.mp hstop).1
  | bareword text =>
    have hbare : isBare d = false := hstop
    cases hd' : isNameChar d with
    | false => rfl
    | true =>
      rw [isBare_of_isNameChar d hd'] at hbare
      contradiction
  | int digits => exact absurd rfl hi
  | colon | comma | dot | openParen | openBracket | closeParen | closeBracket | star =>
    cases hc
    exact absurd hname (by decide)
  | combinator k => cases k <;> cases hc <;> exact absurd hname (by decide)
  | comparison k => cases k <;> cases hc <;> exact absurd hname (by decide)
  | quoted mark body =>
    have hlast : mark = c :=
      Option.some.inj ((List.getLast?_concat (l := mark :: body)).symm.trans hc)
    rcases hw.1 with rfl | rfl <;> subst hlast <;> exact absurd hname (by decide)

/-- Behind a number stands a gap or a closing parenthesis. -/
theorem head?_of_int (d d' : Written.Draft) (digits r : List Char) (ts : List Token)
    (ht : Takes d (.int digits :: ts) d') (hl : Laid ts r) :
    ∀ c ∈ r.head?, isGap c = true ∨ c = ')' := by
  intro c hc
  cases ht with
  | next _ _ _ _ hint htakes =>
    obtain ⟨name, hname⟩ : ∃ name, d.cursor = .openParen name := by
      cases hcur : d.cursor <;> simp [hcur, Written.Cursor.accepts, Token.kind] at hint
      exact ⟨_, rfl⟩
    have hindex : (d.push (.int digits)).cursor = .index name digits := by
      simp [Written.Draft.push, hname]
    cases hl with
    | done _ hg => exact .inl (hg c (List.mem_of_mem_head? hc))
    | next gap q t _ hg hw hs _ =>
      cases gap with
      | cons e gap => exact .inl (hg c (by rw [Option.some.inj hc]; simp))
      | nil =>
        cases htakes with
        | next _ _ _ _ hclose _ =>
          rw [hindex] at hclose
          cases t <;> simp [Written.Cursor.accepts, Token.kind] at hclose
          exact .inr (Option.some.inj hc).symm

theorem spaced_of_laid (d d' : Written.Draft) (ts : List Token) (cs : List Char)
    (ht : Takes d ts d') (hl : Laid ts cs) : Spaced (ts.map Token.text) cs := by
  induction ht generalizing cs with
  | done d =>
    cases hl with
    | done _ hg => exact .done cs hg
  | next d d' t ts ht htakes ih =>
    cases hl with
    | next gap r _ _ hg hw hs hl =>
      refine .next gap t.text r _ hg ?_ (ih r hl)
      -- a number ends where the digits end, and only what follows it keeps letters away
      by_cases hi : t.kind = .int
      · cases t <;> simp [Token.kind] at hi
        case int digits =>
          intro c _ e he _
          rcases head?_of_int d d' digits r ts (.next _ _ _ _ ht htakes) hl e he with h | rfl
          · exact (Bool.or_eq_false_iff.mp (isPseudoChar_of_isGap e h)).1
          · decide
      · exact t.text_apart r hw hs hi

theorem spells_value (v : Written.Value) (h : v.token.Whole) :
    SpellsValue v.meaning v.token.text := by
  cases v with
  | quoted mark body =>
    obtain ⟨hm, value, hu⟩ := h
    rw [Written.Value.meaning, unescape_of_unescapes mark body value hu]
    exact .quoted mark body value hm hu
  | bare text => exact .bare text h.1 h.2

theorem text_dotted (names : List (List Char)) :
    (Written.dotted names).map Token.text = List.intercalate [['.']] (names.map fun n => [n]) := by
  rw [Written.dotted, Written.apply_intercalate (List.map Token.text) rfl fun _ _ => List.map_append,
    List.map_map]
  rfl

theorem spells_path (names : List (List Char)) (hne : names ≠ [])
    (hw : ∀ t ∈ Written.dotted names, t.Whole) :
    SpellsPath (names.map String.ofList) ((Written.dotted names).map Token.text) where
  ne_nil := by simpa using hne
  names := by
    intro n hn
    obtain ⟨name, hname, rfl⟩ := List.mem_map.mp hn
    rw [String.toList_ofList]
    exact hw (.name name) (Written.mem_dotted names name hname)
  words := by
    rw [text_dotted, List.map_map]
    simp [Function.comp_def]

theorem spells_predicate (p : Written.Predicate) (hp : p.path ≠ []) (hw : ∀ t ∈ p.tokens, t.Whole) :
    SpellsPredicate p.meaning (p.tokens.map Token.text) := by
  obtain ⟨path, test⟩ := p
  have hpath : SpellsPath (path.map String.ofList) ((Written.dotted path).map Token.text) :=
    spells_path path hp fun t ht => hw t (by simp [Written.Predicate.tokens, ht])
  cases test with
  | none =>
    have h := SpellsPredicate.present _ _ hpath
    simpa [Written.Predicate.tokens, Written.Predicate.meaning, Token.text] using h
  | some test =>
    obtain ⟨c, v⟩ := test
    have hv : v.token.Whole := hw v.token (by simp [Written.Predicate.tokens])
    have h := SpellsPredicate.compared _ _ c _ _ hpath (spells_value v hv)
    simpa [Written.Predicate.tokens, Written.Predicate.meaning, Token.text] using h

theorem spells_pseudo (w : Written.Pseudo) (p : Pseudo) (h : PseudoMeans w p)
    (hw : ∀ t ∈ w.tokens, t.Whole) : SpellsPseudo p (w.tokens.map Token.text) := by
  obtain ⟨name, index⟩ := w
  have hname : name.map Char.toLower = p.name.toList := by
    rw [← h.name, String.toList_ofList]
  have hindex := h.index
  cases index with
  | none => exact .plain p name hname (Except.ok.inj hindex).symm
  | some digits =>
    have hint : (Token.int digits).Whole := hw _ (by simp [Written.Pseudo.tokens])
    exact .counted p name digits hname hint.1 hint.2 ((index_eq_ok_iff digits p.index).mp hindex).2

theorem spells_type (type : Written.NodeType) (h : type.token.Whole) :
    SpellsType type.meaning [type.token.text] := by
  cases type with
  | star => exact .star
  | name text =>
    have hname := SpellsType.name (String.ofList text) (by rwa [String.toList_ofList])
    rwa [String.toList_ofList] at hname

theorem forall₂_of_written {α β : Type} (M : β → α → Prop) (R : α → List (List Char) → Prop)
    (words : β → List (List Char)) (ws : List β) (xs : List α) (h : List.Forall₂ M ws xs)
    (hR : ∀ w ∈ ws, ∀ x, M w x → R x (words w)) : List.Forall₂ R xs (ws.map words) := by
  induction h with
  | nil => exact .nil
  | cons hx _ ih =>
    exact .cons (hR _ (by simp) _ hx) (ih fun w hw => hR w (List.mem_cons_of_mem _ hw))

/-- Parts are spelled in turn when each written part spells what it means. -/
theorem each_of_written {α β : Type} (M : β → α → Prop) (R : α → List (List Char) → Prop)
    (tokens : β → List Token) (ws : List β) (xs : List α) (h : List.Forall₂ M ws xs)
    (hR : ∀ w ∈ ws, ∀ x, M w x → R x ((tokens w).map Token.text)) :
    Each R xs ((ws.flatMap tokens).map Token.text) :=
  ⟨_, forall₂_of_written M R _ ws xs h hR, by rw [List.map_flatMap, List.flatMap_def]⟩

theorem spells_step (w : Written.Step) (s : Step) (h : w.meaning = .ok s) (hs : w.Sound)
    (hw : ∀ t ∈ w.tokens, t.Whole) : SpellsStep s (w.tokens.map Token.text) := by
  obtain ⟨type, predicates, pseudos⟩ := w
  obtain ⟨htype, hpredicates, hpseudos⟩ := (step_meaning_eq_ok_iff _ s).mp h
  have hp : Each SpellsPredicate s.predicates
      ((predicates.flatMap Written.Predicate.tokens).map Token.text) := by
    refine each_of_written (fun w p => p = w.meaning) _ _ predicates _ ?_ ?_
    · rw [hpredicates, List.forall₂_map_right_iff, List.forall₂_same]
      exact fun _ _ => rfl
    · rintro w hmem _ rfl
      apply spells_predicate w (hs.paths w hmem)
      exact fun t ht => hw t (Written.mem_tokens_of_predicate _ w hmem t ht)
  have hq : Each SpellsPseudo s.pseudos
      ((pseudos.flatMap Written.Pseudo.tokens).map Token.text) := by
    refine each_of_written PseudoMeans _ _ pseudos _ hpseudos ?_
    intro w hmem p hmeans
    apply spells_pseudo w p hmeans
    exact fun t ht => hw t (Written.mem_tokens_of_pseudo _ w hmem t ht)
  cases type with
  | some type =>
    have hwhole : type.token.Whole := hw _ (by simp [Written.Step.tokens])
    have ht : SpellsType s.type [type.token.text] := htype ▸ spells_type type hwhole
    have h := SpellsStep.typed s _ _ _ ht hp hq
    simpa [Written.Step.tokens] using h
  | none =>
    -- without a type something else is written, as the step is not blank
    have hne : s.predicates ≠ [] ∨ s.pseudos ≠ [] := by
      rw [← not_and_or, hpredicates]
      rintro ⟨hnil, hnil'⟩
      rw [hnil', List.forall₂_nil_right_iff] at hpseudos
      exact hs.written (by simp_all [Written.Step.blank])
    have h := SpellsStep.untyped s _ _ htype hne hp hq
    simpa [Written.Step.tokens] using h

theorem text_tieTokens (c : Combinator) :
    (Written.tieTokens c).map Token.text = tieWords c := by
  cases c <;> rfl

theorem spells_query (w : Written.Query) (q : Query) (h : w.meaning = .ok q) (hs : w.Sound)
    (hw : ∀ t ∈ w.tokens, t.Whole) : SpellsQuery q (w.tokens.map Token.text) := by
  obtain ⟨hfirst, hrest⟩ := (query_meaning_eq_ok_iff w q).mp h
  refine ⟨_, _, spells_step w.first q.first hfirst hs.first ?_, ?_, List.map_append⟩
  · exact fun t ht => hw t (List.mem_append_left _ ht)
  · refine each_of_written _ SpellsTied _ w.rest q.rest hrest ?_
    rintro ⟨c, v⟩ hmem ⟨_, s⟩ ⟨rfl, hmeaning⟩
    have hwhole : ∀ t ∈ v.tokens, t.Whole := fun t ht =>
      hw t (Written.mem_tokens_of_tied w _ hmem t ht)
    refine ⟨_, spells_step v s hmeaning (hs.rest _ hmem) hwhole, ?_⟩
    rw [List.map_append, text_tieTokens]

/-- Parsing is sound: a text spells the selectors that are read from it. -/
theorem spells_of_parse (text : List Char) (l : SelectorList) (h : parse text = .ok l) :
    Spells text l := by
  obtain ⟨ws, d, htakes, hlaid, hne, hws, hmeaning⟩ := exists_written_of_parse text l h
  refine ⟨(Written.queriesTokens ws).map Token.text, ⟨?_, ws.map fun w => w.tokens.map Token.text,
    ?_, ?_⟩, spaced_of_laid _ d _ text htakes hlaid⟩
  · intro hnil
    rw [hnil, List.forall₂_nil_right_iff] at hmeaning
    exact hne hmeaning
  · apply forall₂_of_written _ SpellsQuery _ _ _ hmeaning
    intro w hmem q hq
    obtain ⟨hsound, hwhole⟩ := hws w hmem
    exact spells_query w q hq hsound hwhole
  · rw [Written.queriesTokens,
      Written.apply_intercalate (List.map Token.text) rfl fun _ _ => List.map_append, List.map_map]
    rfl

/-- Glued steps, a bareword with a quote and a comma in it, a quote that is not closed, and a number
with zeros in front. -/
def gluedText : List Char :=
  "*a[b = \"x\\\"y\"][c.d^=it's,e]:FIRST[f='x] ~\t:nth( 007 ),g".toList

def gluedList : SelectorList :=
  ⟨[⟨⟨none, [], []⟩,
      [(.descendant, ⟨some "a", [⟨["b"], some (.equal, "x\"y")⟩,
          ⟨["c", "d"], some (.startsWith, "it's,e")⟩], [.pick .first]⟩),
        (.descendant, ⟨none, [⟨["f"], some (.equal, "'x")⟩], []⟩),
        (.sibling, ⟨none, [], [.pick (.nth 7)]⟩)]⟩,
    ⟨⟨some "g", [], []⟩, []⟩]⟩

theorem spells_gluedText : parse gluedText = .ok gluedList ∧ Spells gluedText gluedList := by
  have hparse : parse gluedText = .ok gluedList := by decide +kernel
  exact ⟨hparse, spells_of_parse gluedText gluedList hparse⟩

end TreeSelect.Selector
