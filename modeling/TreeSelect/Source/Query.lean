import TreeSelect.Grammar.Supply
import TreeSelect.Matching.Chain
import TreeSelect.Selector.Parse
import TreeSelect.Tree.Fault

namespace TreeSelect.Source
open Grammar

/-- The tree that each grammar gives of a text. -/
abbrev Reader := Grammar → String → Tree.Node

structure Parsed where
  root : Tree.Node
  source : List UInt8
  filename : String
  grammar : Grammar

/-- A source that is wrong, and the directory that its name is to be seen from. -/
structure Malformed where
  message : String
  filename : String
  position : Tree.Position
  grammar : Grammar
  directory : Option String
  deriving DecidableEq

inductive ParseError where
  | unavailable (error : LoadError)
  | malformed (error : Malformed)
  deriving DecidableEq

def ParseError.message : ParseError → String
  | .unavailable e => e.message
  | .malformed e => e.message

/-- Takes the tree of a text if it is without fault. A directory of no name is not told. -/
def accept (reader : Reader) (text filename : String) (directory : Option String) (g : Grammar) :
    Except Malformed Parsed :=
  let source := Text.Utf8.encode text.toList
  let root := reader g text
  match root.firstFault with
  | none => .ok ⟨root, source, filename, g⟩
  | some n =>
    .error ⟨n.faultMessage source, filename, n.startPosition source, g,
      directory.filter (· ≠ "")⟩

/-- Reads a text by the grammar for its name, and tells which grammars are loaded after it. -/
def parse (supply : Supply) (loaded : List Grammar) (reader : Reader) (text filename : String)
    (directory : Option String) (dialects : List String) :
    List Grammar × Except ParseError Parsed :=
  let g := select filename dialects
  match request supply loaded g with
  | .error e => (loaded, .error (.unavailable e))
  | .ok more => (more, (accept reader text filename directory g).mapError .malformed)

inductive QueryError where
  | selector (error : Selector.Error)
  | source (error : ParseError)
  deriving DecidableEq

/-- The name of a text that comes without one. -/
def defaultFilename : String := "input.tsx"

/-- The matches of a selector in a text, and the grammars that were asked for on the way. -/
def query (supply : Supply) (reader : Reader) (text selector filename : String)
    (dialects : List String) (withCode : Bool) :
    List Grammar × Except QueryError (List Matching.Match) :=
  match Selector.parse selector.toList with
  | .error e => ([], .error (.selector e))
  | .ok q =>
    let parsed := (parse supply [] reader text filename none dialects).2
    ([select filename dialects],
      match parsed with
      | .error e => .error (.source e)
      | .ok p => .ok (Matching.query p.source p.root q withCode))

end TreeSelect.Source
