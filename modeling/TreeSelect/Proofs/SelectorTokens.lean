import Mathlib.Data.List.TakeWhile
import TreeSelect.Selector.Parse

/-! When a token is read. Each kind reads the longest token of its kind, which stands at the front of
a text exactly where its characters stand and do not go on; and where a token may come next, its
first character tells of which kind it is. -/
namespace TreeSelect.Selector
open Written

/-- A character of one class followed by characters of another. -/
def IsWord (first later : Char → Bool) (cs : List Char) : Prop :=
  ∃ c r, cs = c :: r ∧ first c = true ∧ ∀ d ∈ r, later d = true

/-- A quoted body beside the value that is left when the backslashes are taken away. -/
inductive Unescapes (mark : Char) : List Char → List Char → Prop
  | done : Unescapes mark [] []
  | plain (c : Char) (body value : List Char) (hm : c ≠ mark) (hb : c ≠ '\\')
      (h : Unescapes mark body value) : Unescapes mark (c :: body) (c :: value)
  | escaped (c : Char) (body value : List Char) (hc : c ≠ '\n') (h : Unescapes mark body value) :
      Unescapes mark ('\\' :: c :: body) (c :: value)

/-- The characters of a token are as its kind asks for. -/
def Token.Whole : Token → Prop
  | .bareword text => text ≠ [] ∧ ∀ c ∈ text, isBare c = true
  | .combinator c => c ≠ .descendant
  | .int digits => digits ≠ [] ∧ ∀ c ∈ digits, c.isDigit = true
  | .name text => IsWord isNameStart isNameChar text
  | .pseudoName text => IsWord isNameStart isPseudoChar text
  | .quoted mark body => (mark = '"' ∨ mark = '\'') ∧ ∃ value, Unescapes mark body value
  | _ => True

/-- A character with which the token would go on. -/
def Token.grows : Token → Char → Bool
  | .bareword _, c => isBare c
  | .int _, c => c.isDigit
  | .name _, c => isNameChar c
  | .pseudoName _, c => isPseudoChar c
  | _, _ => false

/-- A token ends where the rest begins. -/
def Token.Stops (t : Token) (r : List Char) : Prop := ∀ c ∈ r.head?, t.grows c = false

theorem takeWhile_append_stop (p : Char → Bool) (text r : List Char) (ht : ∀ c ∈ text, p c = true)
    (hr : ∀ c ∈ r.head?, p c = false) :
    (text ++ r).takeWhile p = text ∧ (text ++ r).dropWhile p = r := by
  rw [List.takeWhile_append_of_pos ht, List.dropWhile_append_of_pos ht]
  cases r with
  | nil => simp
  | cons c r => simp [hr c (by simp)]

theorem head?_dropWhile_eq_false (p : Char → Bool) (cs : List Char) :
    ∀ c ∈ (cs.dropWhile p).head?, p c = false := by
  intro c hc
  have h := List.head?_dropWhile_not p cs
  rw [Option.mem_def.mp hc] at h
  simpa using h

theorem readRun_eq_some_iff (p : Char → Bool) (cs text r : List Char) :
    readRun p cs = some (text, r) ↔
      (text ≠ [] ∧ ∀ c ∈ text, p c = true) ∧ (∀ c ∈ r.head?, p c = false) ∧ text ++ r = cs := by
  constructor
  · intro h
    obtain ⟨happ, hne⟩ := readRun_append h
    simp only [readRun] at h
    split at h
    · simp at h
    · simp only [Option.some.injEq, Prod.mk.injEq] at h
      obtain ⟨rfl, rfl⟩ := h
      exact ⟨⟨hne, fun c hc => List.mem_takeWhile_imp hc⟩, head?_dropWhile_eq_false p cs, happ⟩
  · rintro ⟨⟨hne, ht⟩, hr, rfl⟩
    obtain ⟨htake, hdrop⟩ := takeWhile_append_stop p text r ht hr
    simp only [readRun, htake, hdrop, if_neg hne]

theorem readWord_eq_some_iff (first later : Char → Bool) (cs text r : List Char) :
    readWord first later cs = some (text, r) ↔
      IsWord first later text ∧ (∀ c ∈ r.head?, later c = false) ∧ text ++ r = cs := by
  constructor
  · intro h
    obtain ⟨happ, -⟩ := readWord_append h
    cases cs with
    | nil => simp [readWord] at h
    | cons c cs =>
      simp only [readWord] at h
      split at h
      next hc =>
        simp only [Option.some.injEq, Prod.mk.injEq] at h
        obtain ⟨rfl, rfl⟩ := h
        exact ⟨⟨c, _, rfl, hc, fun d hd => List.mem_takeWhile_imp hd⟩,
          head?_dropWhile_eq_false later cs, happ⟩
      · simp at h
  · rintro ⟨⟨c, w, rfl, hc, hw⟩, hr, rfl⟩
    obtain ⟨htake, hdrop⟩ := takeWhile_append_stop later w r hw hr
    simp only [List.cons_append, readWord, if_pos hc, htake, hdrop]

theorem unescapes_of_readQuoted (mark : Char) (cs body r : List Char)
    (h : readQuoted mark cs = some (body, r)) : Unescapes mark body (unescape body) := by
  fun_induction readQuoted mark cs generalizing body r with
  | case1 => simp at h
  | case2 => simp at h
  | case3 c r' hc ih =>
    obtain ⟨⟨b, q⟩, hb, he⟩ := Option.map_eq_some_iff.1 h
    simp only [Prod.mk.injEq] at he
    obtain ⟨rfl, rfl⟩ := he
    simp only [unescape]
    exact .escaped c b _ hc (ih b _ hb)
  | case4 r' =>
    simp only [Option.some.injEq, Prod.mk.injEq] at h
    obtain ⟨rfl, rfl⟩ := h
    exact .done
  | case5 => simp at h
  | case6 c r' hesc hm hb ih =>
    obtain ⟨⟨b, q⟩, hq, he⟩ := Option.map_eq_some_iff.1 h
    simp only [Prod.mk.injEq] at he
    obtain ⟨rfl, rfl⟩ := he
    have hu : unescape (c :: b) = c :: unescape b := by
      rw [unescape]
      simp [hb]
    rw [hu]
    exact .plain c b _ hm hb (ih b _ hq)

theorem unescape_of_unescapes (mark : Char) (body value : List Char)
    (h : Unescapes mark body value) : unescape body = value := by
  induction h with
  | done => rfl
  | plain c body value _ hb _ ih =>
    rw [unescape, ih]
    simp [hb]
  | escaped c body value _ _ ih => rw [unescape, ih]

theorem readQuoted_of_unescapes (mark : Char) (body value r : List Char) (hm : mark ≠ '\\')
    (h : Unescapes mark body value) : readQuoted mark (body ++ mark :: r) = some (body, r) := by
  induction h with
  | done => rw [List.nil_append, readQuoted, if_pos rfl]; simp [hm]
  | plain c body value hne hb _ ih =>
    rw [List.cons_append, readQuoted, if_neg hne, if_neg hb, ih, Option.map_some]
    simp [hb]
  | escaped c body value hc _ ih =>
    rw [List.cons_append, List.cons_append, readQuoted, if_neg hc, ih, Option.map_some]

theorem readSign_eq_some_iff (c : Char) (token t : Token) (cs r : List Char) :
    readSign c token cs = some (t, r) ↔ t = token ∧ c :: r = cs := by
  constructor
  · exact readSign_append
  · rintro ⟨rfl, rfl⟩
    rw [readSign, if_pos rfl]

theorem readCombinator_eq_some_iff (c : Combinator) (cs r : List Char) :
    readCombinator cs = some (c, r) ↔ c ≠ .descendant ∧ c.sign ++ r = cs := by
  constructor
  · intro h
    unfold readCombinator at h
    split at h <;> simp_all <;> (obtain ⟨rfl, rfl⟩ := h; simp [Combinator.sign])
  · rintro ⟨hc, rfl⟩
    cases c with
    | descendant => exact absurd rfl hc
    | child => rfl
    | adjacent => rfl
    | sibling => rfl

theorem readComparison_eq_some_iff (c : Comparison) (cs r : List Char) :
    readComparison cs = some (c, r) ↔ c.sign ++ r = cs := by
  constructor
  · intro h
    unfold readComparison at h
    split at h <;> simp_all <;> (obtain ⟨rfl, rfl⟩ := h; simp [Comparison.sign])
  · rintro rfl
    cases c <;> rfl

theorem readQuoted_eq_some_iff (mark : Char) (cs body r : List Char) (hm : mark ≠ '\\') :
    readQuoted mark cs = some (body, r) ↔
      (∃ value, Unescapes mark body value) ∧ body ++ mark :: r = cs := by
  constructor
  · intro h
    exact ⟨⟨_, unescapes_of_readQuoted mark cs body r h⟩, readQuoted_append h⟩
  · rintro ⟨⟨value, hu⟩, rfl⟩
    exact readQuoted_of_unescapes mark body value r hm hu

theorem map_token_eq_some_iff {α : Type} (f : α → Token) (hf : Function.Injective f)
    (o : Option (α × List Char)) (x : α) (r : List Char) :
    (o.map fun (y, r) => (f y, r)) = some (f x, r) ↔ o = some (x, r) := by
  constructor
  · intro h
    obtain ⟨⟨y, q⟩, hq, he⟩ := Option.map_eq_some_iff.1 h
    rw [hq, hf (Prod.mk.inj he).1, (Prod.mk.inj he).2]
  · rintro rfl
    rfl

/-- A token stands at the front of a text where its kind reads it: with all its characters, and with
no character behind them that it would go on with. -/
theorem Kind.read_eq_some_iff (t : Token) (cs r : List Char) :
    t.kind.read cs = some (t, r) ↔ t.Whole ∧ t.Stops r ∧ t.text ++ r = cs := by
  cases t with
  | bareword text =>
    exact (map_token_eq_some_iff Token.bareword (fun _ _ => Token.bareword.inj) _ text r).trans
      (readRun_eq_some_iff isBare cs text r)
  | int digits =>
    exact (map_token_eq_some_iff Token.int (fun _ _ => Token.int.inj) _ digits r).trans
      (readRun_eq_some_iff Char.isDigit cs digits r)
  | name text =>
    exact (map_token_eq_some_iff Token.name (fun _ _ => Token.name.inj) _ text r).trans
      (readWord_eq_some_iff isNameStart isNameChar cs text r)
  | pseudoName text =>
    exact (map_token_eq_some_iff Token.pseudoName (fun _ _ => Token.pseudoName.inj) _ text r).trans
      (readWord_eq_some_iff isNameStart isPseudoChar cs text r)
  | colon | comma | dot | openParen | openBracket | closeParen | closeBracket | star =>
    simp [Token.kind, Kind.read, readSign_eq_some_iff, Token.Whole, Token.Stops, Token.grows,
      Token.text]
  | combinator c =>
    refine (map_token_eq_some_iff Token.combinator (fun _ _ => Token.combinator.inj) _ c r).trans ?_
    simp [readCombinator_eq_some_iff, Token.Whole, Token.Stops, Token.grows, Token.text]
  | comparison c =>
    refine (map_token_eq_some_iff Token.comparison (fun _ _ => Token.comparison.inj) _ c r).trans ?_
    simp [readComparison_eq_some_iff, Token.Whole, Token.Stops, Token.grows, Token.text]
  | quoted mark body =>
    have hinj (m : Char) : Function.Injective (Token.quoted m) := fun _ _ h =>
      (Token.quoted.inj h).2
    constructor
    · intro h
      refine ⟨?_, fun _ _ => rfl, (Kind.read_append h).2.1⟩
      simp only [Token.kind, Kind.read] at h
      -- the first character is the mark that the body is read up to
      split at h
      · obtain ⟨⟨b, q⟩, hq, he⟩ := Option.map_eq_some_iff.1 h
        simp only [Prod.mk.injEq, Token.quoted.injEq] at he
        obtain ⟨⟨rfl, rfl⟩, rfl⟩ := he
        exact ⟨.inl rfl, ((readQuoted_eq_some_iff '"' _ b _ (by decide)).mp hq).1⟩
      · obtain ⟨⟨b, q⟩, hq, he⟩ := Option.map_eq_some_iff.1 h
        simp only [Prod.mk.injEq, Token.quoted.injEq] at he
        obtain ⟨⟨rfl, rfl⟩, rfl⟩ := he
        exact ⟨.inr rfl, ((readQuoted_eq_some_iff '\'' _ b _ (by decide)).mp hq).1⟩
      · simp at h
    · rintro ⟨⟨rfl | rfl, hu⟩, -, rfl⟩
      · refine (map_token_eq_some_iff (Token.quoted '"') (hinj '"') _ body r).mpr ?_
        exact (readQuoted_eq_some_iff '"' _ body r (by decide)).mpr ⟨hu, by simp⟩
      · refine (map_token_eq_some_iff (Token.quoted '\'') (hinj '\'') _ body r).mpr ?_
        exact (readQuoted_eq_some_iff '\'' _ body r (by decide)).mpr ⟨hu, by simp⟩

/-- The characters with which a token of a kind can begin. -/
def Kind.opens : Kind → Char → Bool
  | .bareword, c => isBare c
  | .colon, c => c == ':'
  | .combinator, c => c == '>' || c == '+' || c == '~'
  | .comma, c => c == ','
  | .dot, c => c == '.'
  | .ending, _ => false
  | .int, c => c.isDigit
  | .openParen, c => c == '('
  | .openBracket, c => c == '['
  | .name, c => isNameStart c
  | .comparison, c => c == '=' || c == '!' || c == '~' || c == '^' || c == '$'
  | .pseudoName, c => isNameStart c
  | .closeParen, c => c == ')'
  | .closeBracket, c => c == ']'
  | .star, c => c == '*'
  | .quoted, c => c == '"' || c == '\''

theorem Token.text_opens (t : Token) (h : t.Whole) :
    ∃ c r, t.text = c :: r ∧ t.kind.opens c = true := by
  cases t with
  | bareword text | int text =>
    obtain ⟨hne, ht⟩ := h
    obtain ⟨c, r, rfl⟩ := List.exists_cons_of_ne_nil hne
    exact ⟨c, r, rfl, ht c (by simp)⟩
  | name text | pseudoName text =>
    obtain ⟨c, r, rfl, hc, -⟩ := h
    exact ⟨c, r, rfl, hc⟩
  | colon | comma | dot | openParen | openBracket | closeParen | closeBracket | star =>
    exact ⟨_, [], rfl, rfl⟩
  | combinator c =>
    cases c <;> simp_all [Token.Whole, Token.text, Combinator.sign, Token.kind, Kind.opens]
  | comparison c => cases c <;> simp [Token.text, Comparison.sign, Token.kind, Kind.opens]
  | quoted mark body =>
    obtain ⟨rfl | rfl, -⟩ := h
    · exact ⟨_, _, rfl, rfl⟩
    · exact ⟨_, _, rfl, rfl⟩

theorem Kind.opens_of_read (k : Kind) (c : Char) (cs r : List Char) (t : Token)
    (h : k.read (c :: cs) = some (t, r)) : k.opens c = true := by
  obtain ⟨rfl, -⟩ := Kind.read_append h
  obtain ⟨hw, -, htext⟩ := (Kind.read_eq_some_iff t (c :: cs) r).mp h
  obtain ⟨c', r', ht, hc⟩ := t.text_opens hw
  rw [ht, List.cons_append, List.cons.injEq] at htext
  rwa [← htext.1]

theorem not_isNameStart_sign : ∀ c ∈ ['*', '[', ':', '>', '+', '~', ',', '('],
    isNameStart c = false := by
  intro c hc
  simp only [List.mem_cons, List.not_mem_nil, or_false] at hc
  rcases hc with rfl | rfl | rfl | rfl | rfl | rfl | rfl | rfl <;> decide

/-- Where a token may stand, its first character tells its kind; only a bareword can begin as a
quoted value does, and it is tried after one. -/
theorem accepts_apart (cursor : Cursor) : cursor.accepts.Pairwise fun k k' =>
    k' ≠ .bareword → ∀ c, k.opens c = true → k'.opens c = false := by
  have hsign := not_isNameStart_sign
  simp only [List.forall_mem_cons] at hsign
  cases cursor <;> simp [Cursor.accepts, Kind.opens]
  · grind
  · grind
  · grind
  · grind

theorem readFirst_accepts (cursor : Cursor) (t : Token) (r : List Char)
    (ht : t.kind ∈ cursor.accepts) (hb : t.kind ≠ .bareword) (hw : t.Whole) (hs : t.Stops r) :
    readFirst cursor.accepts (t.text ++ r) = some (t, r) := by
  obtain ⟨before, after, hsplit⟩ := List.append_of_mem ht
  have hread : t.kind.read (t.text ++ r) = some (t, r) :=
    (Kind.read_eq_some_iff t (t.text ++ r) r).mpr ⟨hw, hs, rfl⟩
  refine List.findSome?_eq_some_iff.mpr ⟨before, t.kind, after, hsplit, hread, ?_⟩
  -- a kind that is tried before cannot begin with the first character of the token
  intro k hk
  obtain ⟨c, q, htext, hc⟩ := t.text_opens hw
  have hapart := accepts_apart cursor
  rw [hsplit] at hapart
  have hfalse := (List.pairwise_append.mp hapart).2.2 k hk t.kind (by simp) hb c
  rw [htext, List.cons_append]
  cases hr : k.read (c :: (q ++ r)) with
  | none => rfl
  | some x =>
    have hopen := Kind.opens_of_read k c (q ++ r) x.2 x.1 hr
    rw [hfalse hopen] at hc
    exact absurd hc Bool.false_ne_true

/-- Barewords are read only as values, behind an attempt to read a quoted one. -/
theorem accepts_bareword (cursor : Cursor) (h : Kind.bareword ∈ cursor.accepts) :
    cursor.accepts = [.quoted, .bareword] := by
  cases cursor <;> simp [Cursor.accepts] at h ⊢

theorem readFirst_bareword (cursor : Cursor) (t : Token) (r : List Char)
    (ht : t.kind ∈ cursor.accepts) (hb : t.kind = .bareword) (hw : t.Whole) (hs : t.Stops r)
    (hq : Kind.quoted.read (t.text ++ r) = none) :
    readFirst cursor.accepts (t.text ++ r) = some (t, r) := by
  have hread : Kind.bareword.read (t.text ++ r) = some (t, r) :=
    hb ▸ (Kind.read_eq_some_iff t (t.text ++ r) r).mpr ⟨hw, hs, rfl⟩
  rw [accepts_bareword cursor (hb ▸ ht), readFirst, List.findSome?_cons, hq, List.findSome?_cons,
    hread]

theorem quoted_none_of_readFirst (cursor : Cursor) (t : Token) (cs r : List Char)
    (hb : t.kind = .bareword) (h : readFirst cursor.accepts cs = some (t, r)) :
    Kind.quoted.read cs = none := by
  obtain ⟨ht, -, -⟩ := readFirst_append h
  rw [accepts_bareword cursor (hb ▸ ht), readFirst, List.findSome?_cons] at h
  cases hq : Kind.quoted.read cs with
  | none => rfl
  | some x =>
    rw [hq] at h
    obtain rfl : x = (t, r) := Option.some.inj h
    exact absurd ((Kind.read_append hq).1.symm.trans hb) (by decide)

end TreeSelect.Selector
