import TreeSelect.Selector.Written

namespace TreeSelect.Selector

def isGap (c : Char) : Bool :=
  c == ' ' || c == '\t'

/-- A token and the number of characters before it. -/
structure Lexeme where
  token : Token
  start : Nat

/-- The tokens of a text up to where no token can follow, the draft they make and the rest. -/
structure Scan where
  lexemes : List Lexeme
  draft : Written.Draft
  rest : List Char

def scanFrom (draft : Written.Draft) (offset : Nat) (cs : List Char) : Scan :=
  let unread := cs.dropWhile isGap
  match _h : readFirst draft.cursor.accepts unread with
  | none => ⟨[], draft, unread⟩
  | some (token, r) =>
    let start := offset + (cs.length - unread.length)
    let later := scanFrom (draft.push token) (start + token.text.length) r
    { later with lexemes := ⟨token, start⟩ :: later.lexemes }
termination_by cs.length
decreasing_by
  obtain ⟨_, happ, hne⟩ := readFirst_append _h
  have hlen := congrArg List.length happ
  have hle : (cs.dropWhile isGap).length ≤ cs.length := (List.dropWhile_suffix isGap).length_le
  have hpos := List.length_pos_iff.2 hne
  simp only [List.length_append, unread] at hlen
  omega

def scan (cs : List Char) : Scan :=
  scanFrom .empty 0 cs

end TreeSelect.Selector
