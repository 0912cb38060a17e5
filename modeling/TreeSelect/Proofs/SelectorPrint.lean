import Mathlib.Data.List.Chain
import TreeSelect.Proofs.SelectorMeaning

namespace TreeSelect.Selector

/-- A quoted body: quotes and backslashes have a backslash before them. -/
def escape (value : List Char) : List Char :=
  value.flatMap fun c => if c = '"' ∨ c = '\\' then ['\\', c] else [c]

def Predicate.printed (p : Predicate) : Written.Predicate :=
  ⟨p.path.map String.toList, p.test.map fun (c, v) => (c, .quoted '"' (escape v.toList))⟩

def Pseudo.printed (p : Pseudo) : Written.Pseudo :=
  ⟨p.name.toList, p.index.map (Nat.toDigits 10)⟩

def Step.printed (s : Step) : Written.Step :=
  ⟨some (s.type.elim .star fun n => .name n.toList), s.predicates.map Predicate.printed,
    s.pseudos.map Pseudo.printed⟩

def Query.printed (q : Query) : Written.Query :=
  ⟨q.first.printed, q.rest.map fun (c, s) => (c, s.printed)⟩

/-- A piece of print: a token, or the gap that must stand between descendants. -/
inductive Piece where
  | token (token : Token)
  | space

def tiePieces : Combinator → List Piece
  | .descendant => [.space]
  | c => [.token (.combinator c)]

def Query.pieces (q : Query) : List Piece :=
  q.first.printed.tokens.map .token ++
    q.rest.flatMap fun (c, s) => tiePieces c ++ s.printed.tokens.map .token

def SelectorList.pieces (l : SelectorList) : List Piece :=
  List.intercalate [.token .comma] (l.queries.map Query.pieces)

/-- Texts in which pieces of print stand in order, with any gaps around them. -/
inductive Prints : List Piece → List Char → Prop
  | done (gap : List Char) (hg : ∀ c ∈ gap, isGap c = true) : Prints [] gap
  | token (gap r : List Char) (t : Token) (ps : List Piece) (hg : ∀ c ∈ gap, isGap c = true)
      (h : Prints ps r) : Prints (.token t :: ps) (gap ++ (t.text ++ r))
  | space (gap r : List Char) (ps : List Piece) (hg : ∀ c ∈ gap, isGap c = true)
      (hne : gap ≠ []) (h : Prints ps r) : Prints (.space :: ps) (gap ++ r)

def Piece.tokens : Piece → List Token
  | .token t => [t]
  | .space => []

/-- Names and numbers, which go on when a character of their class follows. -/
def Piece.isWord : Piece → Bool
  | .token (.name _) => true
  | .token (.pseudoName _) => true
  | .token (.int _) => true
  | _ => false

/-- Pieces of which no two words stand together, with whole tokens and no barewords. -/
structure Apart (ps : List Piece) : Prop where
  chain : ps.IsChain fun p p' => p.isWord = true → p'.isWord = false
  whole : ∀ t ∈ ps.flatMap Piece.tokens, t.Whole ∧ t.kind ≠ .bareword

/-- Pieces that do not begin with a word, so that they may stand behind any others. -/
structure Firm (ps : List Piece) : Prop extends Apart ps where
  head : ∀ p ∈ ps.head?, p.isWord = false

theorem Apart.single (t : Token) (hw : t.Whole) (hb : t.kind ≠ .bareword) : Apart [.token t] :=
  ⟨List.isChain_singleton _, by simpa [Piece.tokens] using ⟨hw, hb⟩⟩

theorem Apart.append {ps qs : List Piece} (h : Apart ps) (h' : Firm qs) : Apart (ps ++ qs) where
  chain := h.chain.append h'.chain fun _ _ q hq _ => h'.head q hq
  whole := by
    rw [List.flatMap_append]
    exact List.forall_mem_append.mpr ⟨h.whole, h'.whole⟩

theorem Firm.append {ps qs : List Piece} (h : Firm ps) (h' : Firm qs) : Firm (ps ++ qs) where
  toApart := h.toApart.append h'
  head := by
    cases ps with
    | nil => exact h'.head
    | cons p ps => exact h.head

theorem firm_nil : Firm [] := ⟨⟨List.isChain_nil, by simp⟩, by simp⟩

theorem Firm.cons (p : Piece) (ps : List Piece) (hp : p.isWord = false)
    (hw : ∀ t ∈ p.tokens, t.Whole ∧ t.kind ≠ .bareword) (h : Apart ps) : Firm (p :: ps) where
  chain := h.chain.cons fun _ _ hword => absurd (hp.symm.trans hword) Bool.false_ne_true
  whole := by
    rw [List.flatMap_cons]
    exact List.forall_mem_append.mpr ⟨hw, h.whole⟩
  head := by simpa using hp

theorem Firm.flatMap {α : Type} (f : α → List Piece) (xs : List α) (h : ∀ x ∈ xs, Firm (f x)) :
    Firm (xs.flatMap f) := by
  induction xs with
  | nil => exact firm_nil
  | cons x xs ih =>
    rw [List.flatMap_cons]
    exact (h x (by simp)).append (ih fun y hy => h y (List.mem_cons_of_mem x hy))

/-- No sign begins with a character of a name. -/
theorem isPseudoChar_of_opens (t : Token) (c : Char) (hb : t.kind ≠ .bareword)
    (hw : (Piece.token t).isWord = false) (h : t.kind.opens c = true) : isPseudoChar c = false := by
  cases t with
  | bareword text => exact absurd rfl hb
  | name text | pseudoName text | int digits => exact absurd hw (by simp [Piece.isWord])
  | colon | comma | dot | openParen | openBracket | closeParen | closeBracket | star =>
    obtain rfl : c = _ := beq_iff_eq.mp h
    decide
  | combinator k =>
    simp only [Token.kind, Kind.opens, Bool.or_eq_true, beq_iff_eq] at h
    rcases h with (rfl | rfl) | rfl <;> decide
  | comparison k =>
    simp only [Token.kind, Kind.opens, Bool.or_eq_true, beq_iff_eq] at h
    rcases h with (((rfl | rfl) | rfl) | rfl) | rfl <;> decide
  | quoted mark body =>
    simp only [Token.kind, Kind.opens, Bool.or_eq_true, beq_iff_eq] at h
    rcases h with rfl | rfl <;> decide

theorem grows_of_not_isPseudoChar (t : Token) (c : Char) (hb : t.kind ≠ .bareword)
    (h : isPseudoChar c = false) : t.grows c = false := by
  have hname : isNameChar c = false := (Bool.or_eq_false_iff.mp h).1
  cases t with
  | bareword text => exact absurd rfl hb
  | name text => exact hname
  | pseudoName text => exact h
  | int digits =>
    simp only [isNameChar, Char.isAlphanum, Bool.or_eq_false_iff] at hname
    exact hname.1.2
  | _ => rfl

theorem stops_of_prints (t : Token) (ps : List Piece) (r : List Char)
    (h : Apart (.token t :: ps)) (hp : Prints ps r) : t.Stops r := by
  intro c hc
  have hb : t.kind ≠ .bareword := (h.whole t (by simp [Piece.tokens])).2
  cases hp with
  | done _ hg =>
    have hgap := hg c (List.mem_of_mem_head? hc)
    exact grows_of_not_isPseudoChar t c hb (isPseudoChar_of_isGap c hgap)
  | token gap r' t' ps' hg _ =>
    cases gap with
    | cons e gap =>
      have hgap : isGap c = true := hg c (by simp [Option.some.inj hc])
      exact grows_of_not_isPseudoChar t c hb (isPseudoChar_of_isGap c hgap)
    | nil =>
      -- the next token stands right behind, and one of the two is a sign
      obtain ⟨hw', hb'⟩ := h.whole t' (by simp [Piece.tokens])
      obtain ⟨e, q, htext, hopens⟩ := t'.text_opens hw'
      have hec : e = c := by simpa [htext] using hc
      cases hword : (Piece.token t).isWord with
      | true =>
        have hsign : (Piece.token t').isWord = false := h.chain.rel hword
        exact grows_of_not_isPseudoChar t c hb (isPseudoChar_of_opens t' c hb' hsign (hec ▸ hopens))
      | false =>
        cases t with
        | bareword text => exact absurd rfl hb
        | name text | pseudoName text | int digits => simp [Piece.isWord] at hword
        | _ => rfl
  | space gap r' ps' hg hne _ =>
    obtain ⟨e, gap, rfl⟩ := List.exists_cons_of_ne_nil hne
    have hgap : isGap c = true := hg c (by simp [Option.some.inj hc])
    exact grows_of_not_isPseudoChar t c hb (isPseudoChar_of_isGap c hgap)

theorem Laid.gap (ts : List Token) (gap r : List Char) (hg : ∀ c ∈ gap, isGap c = true)
    (h : Laid ts r) : Laid ts (gap ++ r) := by
  cases h with
  | done gap' hg' => exact .done _ (List.forall_mem_append.mpr ⟨hg, hg'⟩)
  | next gap' r' t ts hg' hw hs h =>
    rw [← List.append_assoc]
    exact .next _ r' t ts (List.forall_mem_append.mpr ⟨hg, hg'⟩) hw hs h

/-- A text in which pieces are printed shows their tokens. -/
theorem laid_of_prints (ps : List Piece) (text : List Char) (h : Apart ps) (hp : Prints ps text) :
    Laid (ps.flatMap Piece.tokens) text := by
  induction hp with
  | done gap hg => exact .done gap hg
  | token gap r t ps hg hr ih =>
    have hrest : Apart ps := ⟨h.chain.tail, fun u hu => h.whole u (by simp [hu])⟩
    exact .next gap r t _ hg (h.whole t (by simp [Piece.tokens])).1 (stops_of_prints t ps r h hr)
      (ih hrest)
  | space gap r ps hg hne _ ih =>
    -- the gap goes in front of the gap of the next token
    have hrest : Apart ps := ⟨h.chain.tail, fun u hu => h.whole u (by simp [hu])⟩
    exact (ih hrest).gap _ gap r hg

end TreeSelect.Selector
