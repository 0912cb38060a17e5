import TreeSelect.Selector.Error
import TreeSelect.Selector.Scan

namespace TreeSelect.Selector

/-- The line and column of a place in a text, counted from 1. -/
def lineColumn (text : List Char) (offset : Nat) : Nat × Nat :=
  let before := text.take offset
  (before.count '\n' + 1, (before.reverse.takeWhile (· ≠ '\n')).length + 1)

/-- A bareword that is one sign alone is told as that sign. -/
def signKind : List Char → Kind
  | ['*'] => .star
  | [','] => .comma
  | [':'] => .colon
  | ['.'] => .dot
  | ['('] => .openParen
  | ['['] => .openBracket
  | _ => .bareword

/-- The kinds under which a token is told that cannot stand where it stands. -/
def offenderKinds : List Kind := [.quoted, .pseudoName, .bareword, .closeParen, .closeBracket]

/-- What to call the front of a text at which none of the tokens stands that could follow. -/
def offender (cs : List Char) : Found :=
  match readFirst offenderKinds cs with
  | some (.bareword text, _) => .token (signKind text) text
  | some (token, _) => .token token.kind token.text
  | none =>
    match cs with
    | [] => .ending
    | c :: _ => .character c

/-- The fault of a scan that could not go on. The end of the text is told at the last token. -/
def Scan.fault (s : Scan) (text : List Char) : SyntaxError :=
  let accepts := s.draft.cursor.accepts
  let at_ (found : Found) (offset : Nat) (expected : List Kind) : SyntaxError :=
    let (line, column) := lineColumn text offset
    ⟨found, line, column, expected⟩
  match offender s.rest with
  | .ending => at_ .ending ((s.lexemes.getLast?.map (·.start)).getD 0) accepts
  | .character c =>
    at_ (.character c) (text.length - s.rest.length) (accepts.filter (· ≠ .ending))
  | found => at_ found (text.length - s.rest.length) accepts

/-- The alternatives that a text spells. -/
def written (text : List Char) : Except SyntaxError (List Written.Query) :=
  let s := scan text
  if s.rest = [] ∧ Kind.ending ∈ s.draft.cursor.accepts then .ok s.draft.queries
  else .error (s.fault text)

/-- Takes the backslashes of a quoted value away and keeps what each escapes. -/
def unescape : List Char → List Char
  | '\\' :: c :: r => c :: unescape r
  | c :: r => c :: unescape r
  | [] => []

def Written.Value.meaning : Written.Value → String
  | .quoted _ body => String.ofList (unescape body)
  | .bare text => String.ofList text

def Written.Predicate.meaning (p : Written.Predicate) : Selector.Predicate :=
  ⟨p.path.map String.ofList, p.test.map fun (c, v) => (c, v.meaning)⟩

def readIndex (digits : List Char) : Except Error Nat :=
  if Text.digitLimit < digits.length then .error (.tooManyDigits digits.length)
  else .ok (Text.valueOf (digits.map fun c => c.toNat - '0'.toNat))

/-- The pseudo of a name in small letters with its argument; `shown` is the name as written. -/
def pseudoOf (name shown : String) (index : Option Nat) : Except Error Pseudo :=
  match name, index with
  | "first", none => .ok (.pick .first)
  | "last", none => .ok (.pick .last)
  | "nth", some i => .ok (.pick (.nth i))
  | "nth", none => .error .needsInteger
  | "first-child", none => .ok (.place .firstChild)
  | "last-child", none => .ok (.place .lastChild)
  | "nth-child", some (i + 1) => .ok (.place (.nthChild (i + 1)))
  | "nth-last-child", some (i + 1) => .ok (.place (.nthLastChild (i + 1)))
  | "nth-child", _ | "nth-last-child", _ => .error (.needsPositive name)
  | "first", _ | "last", _ | "first-child", _ | "last-child", _ => .error (.takesNoArgument name)
  | _, _ => .error (.unknownPseudo shown)

def Written.NodeType.meaning : Written.NodeType → Option String
  | .star => none
  | .name text => some (String.ofList text)

/-- The step that is meant; its numbers are read before its pseudos are looked up. -/
def Written.Step.meaning (s : Written.Step) : Except Error Selector.Step := do
  let indexes ← s.pseudos.mapM fun p => p.index.mapM readIndex
  let pseudos ← (s.pseudos.zip indexes).mapM fun (p, index) =>
    pseudoOf (String.ofList (p.name.map Char.toLower)) (String.ofList p.name) index
  return ⟨s.type.bind (·.meaning), s.predicates.map (·.meaning), pseudos⟩

def Written.Query.meaning (q : Written.Query) : Except Error Selector.Query := do
  let first ← q.first.meaning
  let rest ← q.rest.mapM fun (c, step) => return (c, ← step.meaning)
  return ⟨first, rest⟩

/-- Reads a selector: its form first, then what it means. -/
def parse (text : List Char) : Except Error SelectorList :=
  match written text with
  | .error e => .error (.malformed e)
  | .ok queries => (queries.mapM Written.Query.meaning).map SelectorList.mk

end TreeSelect.Selector
