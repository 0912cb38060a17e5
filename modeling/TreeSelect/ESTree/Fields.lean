import TreeSelect.ESTree.Types

namespace TreeSelect.ESTree

/-- Types of node that declare a name. -/
def declarationTypes : List String := [
  "function_declaration", "generator_function_declaration", "function_expression", "function",
  "generator_function", "class_declaration", "abstract_class_declaration", "class",
  "variable_declarator", "interface_declaration", "type_alias_declaration", "enum_declaration"]

def functionTypes : List String := [
  "function_declaration", "generator_function_declaration", "function_expression", "function",
  "generator_function", "arrow_function", "method_definition"]

def branchingTypes : List String := ["ternary_expression", "if_statement"]

/-- ESTree attributes with the types of node that have them and the field that holds them there. -/
def fields : List (String × List String × String) := [
  ("callee", ["call_expression"], "function"),
  ("callee", ["new_expression"], "constructor"),
  ("id", declarationTypes, "name"),
  ("init", ["variable_declarator"], "value"),
  ("params", functionTypes, "parameters"),
  ("test", branchingTypes, "condition"),
  ("consequent", branchingTypes, "consequence"),
  ("alternate", branchingTypes, "alternative")]

/-- The field that an ESTree attribute names on nodes of a type. -/
def fieldOf (attr type : String) : Option String :=
  (fields.find? fun (name, types, _) => name = attr && types.contains type).map fun f => f.2.2

/-- The text between two quotation marks of one kind, or all of a text that has none. -/
def unquoted (text : List Char) : List Char :=
  match text with
  | mark :: c :: r =>
    if (mark = '\'' ∨ mark = '"') ∧ (c :: r).getLast? = some mark then (c :: r).dropLast else text
  | _ => text

/-- The attribute of a leaf: the name of an identifier, or the value of a literal without the marks
around a string. -/
def leafValue (attr type text : String) : Option String :=
  if attr = "name" ∧ type ∈ nodeTypes "Identifier" then some text
  else if attr = "value" ∧ type ∈ nodeTypes "Literal" then
    some (if type = "string" then String.ofList (unquoted text.toList) else text)
  else none

end TreeSelect.ESTree
