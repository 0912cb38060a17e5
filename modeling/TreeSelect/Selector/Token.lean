import TreeSelect.Selector.Basic
import TreeSelect.Text.Character

namespace TreeSelect.Selector

/-- The kinds of token, the end of the text among them. -/
inductive Kind where
  | bareword
  | colon
  | combinator
  | comma
  | dot
  | ending
  | int
  | openParen
  | openBracket
  | name
  | comparison
  | pseudoName
  | closeParen
  | closeBracket
  | star
  | quoted
  deriving DecidableEq

/-- The name of a kind in messages. -/
def Kind.label : Kind → String
  | .bareword => "BAREWORD"
  | .colon => "COLON"
  | .combinator => "COMBINATOR"
  | .comma => "COMMA"
  | .dot => "DOT"
  | .ending => "$END"
  | .int => "INT"
  | .openParen => "LPAR"
  | .openBracket => "LSQB"
  | .name => "NAME"
  | .comparison => "OP"
  | .pseudoName => "PSEUDO_NAME"
  | .closeParen => "RPAR"
  | .closeBracket => "RSQB"
  | .star => "STAR"
  | .quoted => "STRING"

inductive Token where
  | bareword (text : List Char)
  | colon
  | combinator (combinator : Combinator)
  | comma
  | dot
  | int (digits : List Char)
  | openParen
  | openBracket
  | name (text : List Char)
  | comparison (comparison : Comparison)
  | pseudoName (text : List Char)
  | closeParen
  | closeBracket
  | star
  | quoted (mark : Char) (body : List Char)
  deriving DecidableEq

def Token.kind : Token → Kind
  | .bareword _ => .bareword
  | .colon => .colon
  | .combinator _ => .combinator
  | .comma => .comma
  | .dot => .dot
  | .int _ => .int
  | .openParen => .openParen
  | .openBracket => .openBracket
  | .name _ => .name
  | .comparison _ => .comparison
  | .pseudoName _ => .pseudoName
  | .closeParen => .closeParen
  | .closeBracket => .closeBracket
  | .star => .star
  | .quoted _ _ => .quoted

/-- The characters of a token. -/
def Token.text : Token → List Char
  | .bareword text => text
  | .colon => [':']
  | .combinator c => c.sign
  | .comma => [',']
  | .dot => ['.']
  | .int digits => digits
  | .openParen => ['(']
  | .openBracket => ['[']
  | .name text => text
  | .comparison c => c.sign
  | .pseudoName text => text
  | .closeParen => [')']
  | .closeBracket => [']']
  | .star => ['*']
  | .quoted mark body => mark :: body ++ [mark]

def isNameStart (c : Char) : Bool :=
  c.isAlpha || c == '_'

def isNameChar (c : Char) : Bool :=
  c.isAlphanum || c == '_'

def isPseudoChar (c : Char) : Bool :=
  isNameChar c || c == '-'

/-- A bareword ends at a blank, a closing bracket or a closing parenthesis. -/
def isBare (c : Char) : Bool :=
  !(c == ']' || c == ')' || Text.isBlank c)

/-- The longest run of characters of a class at the front, which must not be empty. -/
def readRun (p : Char → Bool) (cs : List Char) : Option (List Char × List Char) :=
  if cs.takeWhile p = [] then none else some (cs.takeWhile p, cs.dropWhile p)

/-- A character of one class followed by the longest run of another. -/
def readWord (first later : Char → Bool) : List Char → Option (List Char × List Char)
  | [] => none
  | c :: r => if first c then some (c :: r.takeWhile later, r.dropWhile later) else none

/-- What stands before the closing mark. A backslash takes the next character with it, and a line
feed is no such character. -/
def readQuoted (mark : Char) : List Char → Option (List Char × List Char)
  | [] => none
  | '\\' :: c :: r =>
    if c = '\n' then none else (readQuoted mark r).map fun (body, r) => ('\\' :: c :: body, r)
  | c :: r =>
    if c = mark then some ([], r)
    else if c = '\\' then none
    else (readQuoted mark r).map fun (body, r) => (c :: body, r)

def readComparison : List Char → Option (Comparison × List Char)
  | '=' :: r => some (.equal, r)
  | '!' :: '=' :: r => some (.different, r)
  | '~' :: '=' :: r => some (.contains, r)
  | '^' :: '=' :: r => some (.startsWith, r)
  | '$' :: '=' :: r => some (.endsWith, r)
  | _ => none

def readCombinator : List Char → Option (Combinator × List Char)
  | '>' :: r => some (.child, r)
  | '+' :: r => some (.adjacent, r)
  | '~' :: r => some (.sibling, r)
  | _ => none

def readSign (c : Char) (token : Token) : List Char → Option (Token × List Char)
  | [] => none
  | d :: r => if d = c then some (token, r) else none

/-- Reads a token of one kind at the front of a text. -/
def Kind.read (kind : Kind) (cs : List Char) : Option (Token × List Char) :=
  match kind with
  | .bareword => (readRun isBare cs).map fun (text, r) => (.bareword text, r)
  | .colon => readSign ':' .colon cs
  | .combinator => (readCombinator cs).map fun (c, r) => (.combinator c, r)
  | .comma => readSign ',' .comma cs
  | .dot => readSign '.' .dot cs
  | .ending => none
  | .int => (readRun Char.isDigit cs).map fun (digits, r) => (.int digits, r)
  | .openParen => readSign '(' .openParen cs
  | .openBracket => readSign '[' .openBracket cs
  | .name => (readWord isNameStart isNameChar cs).map fun (text, r) => (.name text, r)
  | .comparison => (readComparison cs).map fun (c, r) => (.comparison c, r)
  | .pseudoName =>
    (readWord isNameStart isPseudoChar cs).map fun (text, r) => (.pseudoName text, r)
  | .closeParen => readSign ')' .closeParen cs
  | .closeBracket => readSign ']' .closeBracket cs
  | .star => readSign '*' .star cs
  | .quoted =>
    match cs with
    | '"' :: r => (readQuoted '"' r).map fun (body, r) => (.quoted '"' body, r)
    | '\'' :: r => (readQuoted '\'' r).map fun (body, r) => (.quoted '\'' body, r)
    | _ => none

/-- Reads a token of the first kind of which there is one. -/
def readFirst (kinds : List Kind) (cs : List Char) : Option (Token × List Char) :=
  kinds.findSome? fun kind => kind.read cs

theorem readRun_append {p : Char → Bool} {cs text r : List Char}
    (h : readRun p cs = some (text, r)) : text ++ r = cs ∧ text ≠ [] := by
  unfold readRun at h
  split at h
  · simp at h
  next hne =>
    simp only [Option.some.injEq, Prod.mk.injEq] at h
    obtain ⟨rfl, rfl⟩ := h
    exact ⟨List.takeWhile_append_dropWhile, hne⟩

theorem readWord_append {first later : Char → Bool} {cs text r : List Char}
    (h : readWord first later cs = some (text, r)) : text ++ r = cs ∧ text ≠ [] := by
  cases cs with
  | nil => simp [readWord] at h
  | cons c cs =>
    simp only [readWord] at h
    split at h
    · simp only [Option.some.injEq, Prod.mk.injEq] at h
      obtain ⟨rfl, rfl⟩ := h
      simp [List.takeWhile_append_dropWhile]
    · simp at h

theorem readQuoted_append {mark : Char} {cs body r : List Char}
    (h : readQuoted mark cs = some (body, r)) : body ++ mark :: r = cs := by
  fun_induction readQuoted mark cs generalizing body r with
  | case1 => simp at h
  | case2 => simp at h
  | case3 c r' _ ih =>
    obtain ⟨⟨b, q⟩, hb, he⟩ := Option.map_eq_some_iff.1 h
    simp only [Prod.mk.injEq] at he
    obtain ⟨rfl, rfl⟩ := he
    simp [ih hb]
  | case4 r' =>
    simp only [Option.some.injEq, Prod.mk.injEq] at h
    obtain ⟨rfl, rfl⟩ := h
    rfl
  | case5 => simp at h
  | case6 c r' _ _ _ ih =>
    obtain ⟨⟨b, q⟩, hb, he⟩ := Option.map_eq_some_iff.1 h
    simp only [Prod.mk.injEq] at he
    obtain ⟨rfl, rfl⟩ := he
    simp [ih hb]

theorem readSign_append {c : Char} {token t : Token} {cs r : List Char}
    (h : readSign c token cs = some (t, r)) : t = token ∧ c :: r = cs := by
  cases cs with
  | nil => simp [readSign] at h
  | cons d cs =>
    simp only [readSign] at h
    split at h
    · simp_all
    · simp at h

/-- A token that is read is of its kind, is not empty and ends where the rest begins. -/
theorem Kind.read_append {kind : Kind} {cs r : List Char} {token : Token}
    (h : kind.read cs = some (token, r)) :
    token.kind = kind ∧ token.text ++ r = cs ∧ token.text ≠ [] := by
  cases kind with
  | bareword | int =>
    obtain ⟨⟨t, q⟩, ht, he⟩ := Option.map_eq_some_iff.1 h
    simp only [Prod.mk.injEq] at he
    obtain ⟨rfl, rfl⟩ := he
    exact ⟨rfl, readRun_append ht⟩
  | name | pseudoName =>
    obtain ⟨⟨t, q⟩, ht, he⟩ := Option.map_eq_some_iff.1 h
    simp only [Prod.mk.injEq] at he
    obtain ⟨rfl, rfl⟩ := he
    exact ⟨rfl, readWord_append ht⟩
  | colon | comma | dot | openParen | openBracket | closeParen | closeBracket | star =>
    obtain ⟨rfl, rfl⟩ := readSign_append h
    exact ⟨rfl, rfl, by simp [Token.text]⟩
  | combinator =>
    obtain ⟨⟨t, q⟩, ht, he⟩ := Option.map_eq_some_iff.1 h
    simp only [Prod.mk.injEq] at he
    obtain ⟨rfl, rfl⟩ := he
    unfold readCombinator at ht
    split at ht <;> simp_all [Token.kind, Token.text, Combinator.sign]
    all_goals obtain ⟨rfl, rfl⟩ := ht; simp
  | comparison =>
    obtain ⟨⟨t, q⟩, ht, he⟩ := Option.map_eq_some_iff.1 h
    simp only [Prod.mk.injEq] at he
    obtain ⟨rfl, rfl⟩ := he
    unfold readComparison at ht
    split at ht <;> simp_all [Token.kind, Token.text, Comparison.sign]
    all_goals obtain ⟨rfl, rfl⟩ := ht; simp
  | ending => simp [Kind.read] at h
  | quoted =>
    simp only [Kind.read] at h
    split at h
    · obtain ⟨⟨t, q⟩, ht, he⟩ := Option.map_eq_some_iff.1 h
      simp only [Prod.mk.injEq] at he
      obtain ⟨rfl, rfl⟩ := he
      simp [Token.kind, Token.text, readQuoted_append ht]
    · obtain ⟨⟨t, q⟩, ht, he⟩ := Option.map_eq_some_iff.1 h
      simp only [Prod.mk.injEq] at he
      obtain ⟨rfl, rfl⟩ := he
      simp [Token.kind, Token.text, readQuoted_append ht]
    · simp at h

theorem readFirst_append {kinds : List Kind} {cs r : List Char} {token : Token}
    (h : readFirst kinds cs = some (token, r)) :
    token.kind ∈ kinds ∧ token.text ++ r = cs ∧ token.text ≠ [] := by
  obtain ⟨kind, hk, hr⟩ := List.exists_of_findSome?_eq_some h
  obtain ⟨rfl, happ⟩ := Kind.read_append hr
  exact ⟨hk, happ⟩

end TreeSelect.Selector
