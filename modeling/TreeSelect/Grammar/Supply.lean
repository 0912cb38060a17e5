import TreeSelect.Grammar.Basic

namespace TreeSelect.Grammar

/-- The package that holds each grammar, and whether the grammar can be had from it. -/
structure Supply where
  home : Grammar → String
  available : Grammar → Bool

/-- The packages in which the grammars come. -/
def packageOf : Grammar → String
  | .javascript => "tree_sitter_javascript"
  | .tsx => "tree_sitter_typescript"
  | .typescript => "tree_sitter_typescript"

/-- A supply in which no grammar is wanting. -/
def Supply.full : Supply := ⟨packageOf, fun _ => true⟩

inductive LoadError where
  | unknown (name : String)
  | absent (grammar : Grammar) (home : String)
  deriving DecidableEq

def LoadError.message : LoadError → String
  | .unknown name => s!"Unknown grammar: {name}"
  | .absent grammar home => s!"Language not available: {grammar.name} ({home})"

/-- The name under which the grammar was asked for. -/
def LoadError.grammarName : LoadError → String
  | .unknown name => name
  | .absent grammar _ => grammar.name

/-- The loaded grammars once one more was asked for. One that cannot be had is asked for in vain every
time. -/
def request (supply : Supply) (loaded : List Grammar) (g : Grammar) :
    Except LoadError (List Grammar) :=
  if g ∈ loaded then .ok loaded
  else if supply.available g then .ok (loaded ++ [g])
  else .error (.absent g (supply.home g))

def requestNamed (supply : Supply) (loaded : List Grammar) (name : String) :
    Except LoadError (List Grammar) :=
  match named? name with
  | some g => request supply loaded g
  | none => .error (.unknown name)

/-- Asks for grammars in turn up to the first that cannot be had. -/
def requestAll (supply : Supply) (loaded : List Grammar) :
    List Grammar → List Grammar × Option LoadError
  | [] => (loaded, none)
  | g :: gs =>
    match request supply loaded g with
    | .ok more => requestAll supply more gs
    | .error e => (loaded, some e)

/-- Loads every grammar that the dialects need. -/
def preload (supply : Supply) (loaded : List Grammar) (dialects : List String) :
    List Grammar × Option LoadError :=
  requestAll supply loaded (needed dialects)

end TreeSelect.Grammar
