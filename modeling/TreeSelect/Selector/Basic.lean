namespace TreeSelect.Selector

/-- How a node stands to the node of the step before it. -/
inductive Combinator where
  | descendant
  | child
  | adjacent
  | sibling
  deriving DecidableEq

inductive Comparison where
  | equal
  | different
  | contains
  | startsWith
  | endsWith
  deriving DecidableEq

/-- A test of the attribute at a path: that it is there, or how it compares with a text. -/
structure Predicate where
  path : List String
  test : Option (Comparison × String)
  deriving DecidableEq

/-- Picks one of the nodes of a step, counted from 0. -/
inductive Pick where
  | first
  | last
  | nth (index : Nat)
  deriving DecidableEq

/-- Where a node stands among its siblings, counted from 1. -/
inductive Place where
  | firstChild
  | lastChild
  | nthChild (index : Nat)
  | nthLastChild (index : Nat)
  deriving DecidableEq

inductive Pseudo where
  | pick (pick : Pick)
  | place (place : Place)
  deriving DecidableEq

/-- One step; a step without a type takes nodes of every type. -/
structure Step where
  type : Option String
  predicates : List Predicate
  pseudos : List Pseudo
  deriving DecidableEq

structure Query where
  first : Step
  rest : List (Combinator × Step)
  deriving DecidableEq

/-- Alternatives, whose matches are put together. -/
structure SelectorList where
  queries : List Query
  deriving DecidableEq

/-- The sign between two steps; descendants have none. -/
def Combinator.sign : Combinator → List Char
  | .descendant => []
  | .child => ['>']
  | .adjacent => ['+']
  | .sibling => ['~']

def Comparison.sign : Comparison → List Char
  | .equal => ['=']
  | .different => ['!', '=']
  | .contains => ['~', '=']
  | .startsWith => ['^', '=']
  | .endsWith => ['$', '=']

end TreeSelect.Selector
