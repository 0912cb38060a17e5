import TreeSelect.Selector.Token
import TreeSelect.Text.Numeral
import TreeSelect.Text.Shown

namespace TreeSelect.Selector

/-- What stands where the selector cannot go on. -/
inductive Found where
  | token (kind : Kind) (text : List Char)
  | ending
  | character (c : Char)
  deriving DecidableEq

/-- A fault in the form of a selector: what was found, the line and column of it counted from 1,
and the kinds of token that could have followed. -/
structure SyntaxError where
  found : Found
  line : Nat
  column : Nat
  expected : List Kind
  deriving DecidableEq

/-- The faults of a selector; all but the first are found only in a selector of the right form. -/
inductive Error where
  | malformed (error : SyntaxError)
  | tooManyDigits (count : Nat)
  | takesNoArgument (name : String)
  | needsInteger
  | needsPositive (name : String)
  | unknownPseudo (name : String)
  deriving DecidableEq

def SyntaxError.message (e : SyntaxError) : String :=
  let unexpected (label : String) (text : List Char) : String :=
    s!"Invalid selector: Unexpected token Token('{label}', " ++ String.ofList (Text.quotedChars text)
      ++ s!") at line {e.line}, column {e.column}."
  match e.found with
  | .token kind text => unexpected kind.label text
  | .ending => unexpected Kind.ending.label []
  | .character c =>
    "Invalid selector: No terminal matches '" ++ c.toString ++
      s!"' in the current parser context, at line {e.line} col {e.column}"

/-- The names of the expected kinds in order. -/
def SyntaxError.labels (e : SyntaxError) : List String :=
  (e.expected.map Kind.label).mergeSort

def Error.message : Error → String
  | .malformed e => e.message
  | .tooManyDigits count =>
    "Error trying to process rule \"INT\":\n\n" ++ Text.tooManyDigits count
  | .takesNoArgument name => s!":{name} does not accept arguments"
  | .needsInteger => ":nth requires an integer argument, e.g. :nth(0)"
  | .needsPositive name =>
    s!":{name} requires a positive integer argument, e.g. :{name}(1)"
  | .unknownPseudo name => s!"Unsupported pseudo: {name}"

end TreeSelect.Selector
