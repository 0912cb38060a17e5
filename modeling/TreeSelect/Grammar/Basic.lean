import TreeSelect.Path

namespace TreeSelect

inductive Grammar where
  | javascript
  | tsx
  | typescript
  deriving DecidableEq

namespace Grammar

def name : Grammar → String
  | .javascript => "javascript"
  | .tsx => "tsx"
  | .typescript => "typescript"

def named? : String → Option Grammar
  | "javascript" => some .javascript
  | "tsx" => some .tsx
  | "typescript" => some .typescript
  | _ => none

def jsx : String := "jsx"

def typed : String := "typescript"

def defaultDialects : List String := [jsx, typed]

/-- Files with these suffixes never hold JSX, so an angle bracket in them is a type assertion. -/
def plainSuffixes : List String := [".ts", ".mts", ".cts"]

/-- The grammar for a file. -/
def select (filename : String) (dialects : List String) : Grammar :=
  if typed ∉ dialects then .javascript
  else if jsx ∈ dialects ∧ (Path.ofString filename).suffix ∉ plainSuffixes then .tsx
  else .typescript

/-- Every grammar that some file needs, in the order of their names. -/
def needed (dialects : List String) : List Grammar :=
  if typed ∉ dialects then [.javascript]
  else if jsx ∈ dialects then [.tsx, .typescript]
  else [.typescript]

end Grammar
end TreeSelect
