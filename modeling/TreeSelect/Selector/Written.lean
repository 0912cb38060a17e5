import TreeSelect.Selector.Token

/-! A selector as it is written: the parts that its tokens spell, before any name or number in it is
checked. A draft is what the tokens read so far make of it, and takes one token at a time. -/
namespace TreeSelect.Selector.Written

/-- The value of a comparison, in quotes or bare. -/
inductive Value where
  | quoted (mark : Char) (body : List Char)
  | bare (text : List Char)
  deriving DecidableEq

structure Predicate where
  path : List (List Char)
  test : Option (Comparison × Value)
  deriving DecidableEq

structure Pseudo where
  name : List Char
  index : Option (List Char)
  deriving DecidableEq

inductive NodeType where
  | star
  | name (text : List Char)
  deriving DecidableEq

structure Step where
  type : Option NodeType
  predicates : List Predicate
  pseudos : List Pseudo
  deriving DecidableEq

structure Query where
  first : Step
  rest : List (Combinator × Step)
  deriving DecidableEq

/-- A step of which nothing is written. -/
def Step.blank : Step := ⟨none, [], []⟩

/-- A query with one more step; a step alone begins one. -/
def Query.extend (query : Option Query) (tie : Combinator) (step : Step) : Query :=
  match query with
  | none => ⟨step, []⟩
  | some q => ⟨q.first, q.rest ++ [(tie, step)]⟩

/-- What the last token was, with the parts that wait for their end. -/
inductive Cursor where
  | gap
  | step
  | path (path : List (List Char))
  | attribute (path : List (List Char))
  | comparison (path : List (List Char)) (comparison : Comparison)
  | value (path : List (List Char)) (comparison : Comparison) (value : Value)
  | colon
  | pseudo (name : List Char)
  | openParen (name : List Char)
  | index (name digits : List Char)
  deriving DecidableEq

/-- Alternatives that a comma has ended, the earlier steps of the present one, and the step that is
being written with the way it is tied to them. -/
structure Draft where
  done : List Query
  query : Option Query
  tie : Combinator
  step : Step
  cursor : Cursor
  deriving DecidableEq

def Draft.empty : Draft := ⟨[], none, .descendant, .blank, .gap⟩

/-- A pseudo whose name was the last token turns out to have no argument. -/
def Draft.settle (d : Draft) : Draft :=
  match d.cursor with
  | .pseudo name =>
    { d with step := { d.step with pseudos := d.step.pseudos ++ [⟨name, none⟩] }, cursor := .step }
  | _ => d

/-- Ends the step and begins another. -/
def Draft.breakStep (d : Draft) (tie : Combinator) : Draft :=
  { d with query := some (Query.extend d.query d.tie d.step), tie, step := .blank, cursor := .gap }

def Draft.addType (d : Draft) (type : NodeType) : Draft :=
  let d := if d.cursor = .gap then d else d.breakStep .descendant
  { d with step := ⟨some type, [], []⟩, cursor := .step }

/-- A predicate belongs to the step only as long as the step has no pseudo. -/
def Draft.openPredicate (d : Draft) : Draft :=
  let d := if d.step.pseudos = [] then d else d.breakStep .descendant
  { d with cursor := .path [] }

def Draft.addPredicate (d : Draft) (predicate : Predicate) : Draft :=
  { d with
    step := { d.step with predicates := d.step.predicates ++ [predicate] }
    cursor := .step }

def Draft.addPseudo (d : Draft) (pseudo : Pseudo) : Draft :=
  { d with step := { d.step with pseudos := d.step.pseudos ++ [pseudo] }, cursor := .step }

def Draft.endQuery (d : Draft) : Draft :=
  { Draft.empty with done := d.done ++ [Query.extend d.query d.tie d.step] }

/-- The draft with one more token; a token that cannot stand here leaves it as it is. -/
def Draft.push (d : Draft) (token : Token) : Draft :=
  match d.cursor, token with
  | .path path, .name text => { d with cursor := .attribute (path ++ [text]) }
  | .attribute path, .dot => { d with cursor := .path path }
  | .attribute path, .comparison c => { d with cursor := .comparison path c }
  | .attribute path, .closeBracket => d.addPredicate ⟨path, none⟩
  | .comparison path c, .quoted mark body => { d with cursor := .value path c (.quoted mark body) }
  | .comparison path c, .bareword text => { d with cursor := .value path c (.bare text) }
  | .value path c v, .closeBracket => d.addPredicate ⟨path, some (c, v)⟩
  | .colon, .pseudoName text => { d with cursor := .pseudo text }
  | .pseudo name, .openParen => { d with cursor := .openParen name }
  | .openParen name, .int digits => { d with cursor := .index name digits }
  | .index name digits, .closeParen => d.addPseudo ⟨name, some digits⟩
  | _, .star => d.settle.addType .star
  | _, .name text => d.settle.addType (.name text)
  | _, .openBracket => d.settle.openPredicate
  | _, .colon => { d.settle with cursor := .colon }
  | _, .combinator c => d.settle.breakStep c
  | _, .comma => d.settle.endQuery
  | _, _ => d

/-- The alternatives of a draft whose last one ends here. -/
def Draft.queries (d : Draft) : List Query :=
  d.settle.endQuery.done

/-- The kinds of token that may come next, in the order in which they are tried. -/
def Cursor.accepts : Cursor → List Kind
  | .gap => [.star, .name, .openBracket, .colon]
  | .step => [.star, .name, .openBracket, .colon, .combinator, .comma, .ending]
  | .path _ => [.name]
  | .attribute _ => [.dot, .comparison, .closeBracket]
  | .comparison _ _ => [.quoted, .bareword]
  | .value _ _ _ => [.closeBracket]
  | .colon => [.pseudoName]
  | .pseudo _ => [.openParen, .star, .name, .openBracket, .colon, .combinator, .comma, .ending]
  | .openParen _ => [.int]
  | .index _ _ => [.closeParen]

end TreeSelect.Selector.Written
