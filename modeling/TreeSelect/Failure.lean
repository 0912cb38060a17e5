import TreeSelect.Text.Shown
import TreeSelect.Selector.Error
import TreeSelect.Source.Query

namespace TreeSelect

namespace Failure

/-- What a failure is about. -/
inductive Kind where
  | general
  | selector
  | source
  | grammar
  deriving DecidableEq

end Failure

/-- A failure; its values may be of any kind. An attribute that is not set has no value. -/
structure Failure (α : Type) where
  kind : Failure.Kind
  message : String
  attributes : List (String × α)
  details : List (String × α)

namespace Failure

/-- The code by which programs tell failures apart; that of a general failure is an attribute. -/
def Kind.code? : Kind → Option String
  | .general => none
  | .selector => some "QUERY_PARSE_ERROR"
  | .source => some "SOURCE_PARSE_ERROR"
  | .grammar => some "PARSER_UNAVAILABLE"

/-- What failures of a kind tell besides their message and details. -/
def Kind.attributes : Kind → List String
  | .general => ["code"]
  | .selector => ["selector"]
  | .source => ["filename", "line", "column"]
  | .grammar => ["grammar"]

/-- The first of some names under which a failure of the kind has nothing to tell. -/
def Kind.stranger? (k : Kind) (names : List String) : Option String :=
  names.find? fun name => name ∉ "details" :: k.attributes

def attribute? {α : Type} (f : Failure α) (name : String) : Option α :=
  f.attributes.lookup name

/-- A bad selector. One with a number that is too long ends the query in another way. -/
def ofSelector? (text : String) (e : Selector.Error) : Option (Failure Scalar) :=
  match e with
  | .tooManyDigits _ => none
  | _ => some ⟨.selector, e.message, [("selector", .text text)], []⟩

def ofMalformed (e : Source.Malformed) : Failure Scalar where
  kind := .source
  message := e.message
  attributes :=
    [("filename", .text e.filename), ("line", .number e.position.line),
      ("column", .number e.position.column)]
  details := [("grammar", .text e.grammar.name), ("cwd", .ofText? e.directory)]

def ofLoad (e : Grammar.LoadError) : Failure Scalar :=
  ⟨.grammar, e.message, [("grammar", .text e.grammarName)], []⟩

def ofParse : Source.ParseError → Failure Scalar
  | .unavailable e => ofLoad e
  | .malformed e => ofMalformed e

end Failure
end TreeSelect
