import TreeSelect.Text.Case

namespace TreeSelect.ESTree

def statements : List (String × List String) := [
  ("Program", ["program"]),
  ("ExpressionStatement", ["expression_statement"]),
  ("BlockStatement", ["statement_block"]),
  ("EmptyStatement", ["empty_statement"]),
  ("ReturnStatement", ["return_statement"]),
  ("IfStatement", ["if_statement"]),
  ("SwitchStatement", ["switch_statement"]),
  ("SwitchCase", ["switch_case", "switch_default"]),
  ("ForStatement", ["for_statement"]),
  ("ForInStatement", ["for_in_statement"]),
  ("ForOfStatement", ["for_in_statement"]),
  ("WhileStatement", ["while_statement"]),
  ("DoWhileStatement", ["do_statement"]),
  ("BreakStatement", ["break_statement"]),
  ("ContinueStatement", ["continue_statement"]),
  ("ThrowStatement", ["throw_statement"]),
  ("TryStatement", ["try_statement"]),
  ("CatchClause", ["catch_clause"]),
  ("LabeledStatement", ["labeled_statement"]),
  ("DebuggerStatement", ["debugger_statement"])]

def declarations : List (String × List String) := [
  ("VariableDeclaration", ["lexical_declaration", "variable_declaration"]),
  ("VariableDeclarator", ["variable_declarator"]),
  ("FunctionDeclaration", ["function_declaration", "generator_function_declaration"]),
  ("ClassDeclaration", ["class_declaration", "abstract_class_declaration"]),
  ("ClassBody", ["class_body"]),
  ("ClassMethod", ["method_definition"]),
  ("MethodDefinition", ["method_definition"]),
  ("ClassProperty", ["public_field_definition", "field_definition"]),
  ("PropertyDefinition", ["public_field_definition", "field_definition"]),
  ("ImportDeclaration", ["import_statement"]),
  ("ImportSpecifier", ["import_specifier"]),
  ("ImportNamespaceSpecifier", ["namespace_import"]),
  ("ExportNamedDeclaration", ["export_statement"]),
  ("ExportDefaultDeclaration", ["export_statement"]),
  ("ExportSpecifier", ["export_specifier"])]

def expressions : List (String × List String) := [
  ("Identifier",
    ["identifier", "property_identifier", "shorthand_property_identifier",
      "shorthand_property_identifier_pattern", "type_identifier",
      "private_property_identifier"]),
  ("ThisExpression", ["this"]),
  ("Super", ["super"]),
  ("CallExpression", ["call_expression"]),
  ("NewExpression", ["new_expression"]),
  ("MemberExpression", ["member_expression", "subscript_expression"]),
  ("OptionalMemberExpression", ["member_expression", "subscript_expression"]),
  ("OptionalCallExpression", ["call_expression"]),
  ("ArrowFunctionExpression", ["arrow_function"]),
  ("FunctionExpression", ["function_expression", "function", "generator_function"]),
  ("ClassExpression", ["class"]),
  ("AssignmentExpression", ["assignment_expression", "augmented_assignment_expression"]),
  ("BinaryExpression", ["binary_expression"]),
  ("LogicalExpression", ["binary_expression"]),
  ("UnaryExpression", ["unary_expression"]),
  ("UpdateExpression", ["update_expression"]),
  ("ConditionalExpression", ["ternary_expression"]),
  ("SequenceExpression", ["sequence_expression"]),
  ("AwaitExpression", ["await_expression"]),
  ("YieldExpression", ["yield_expression"]),
  ("SpreadElement", ["spread_element"]),
  ("RestElement", ["rest_pattern"]),
  ("ObjectExpression", ["object"]),
  ("ObjectPattern", ["object_pattern"]),
  ("ArrayExpression", ["array"]),
  ("ArrayPattern", ["array_pattern"]),
  ("Property", ["pair", "shorthand_property_identifier"]),
  ("ObjectProperty", ["pair", "shorthand_property_identifier"]),
  ("AssignmentPattern", ["assignment_pattern", "object_assignment_pattern"]),
  ("ParenthesizedExpression", ["parenthesized_expression"]),
  ("TemplateLiteral", ["template_string"]),
  ("TemplateElement", ["string_fragment"])]

def literals : List (String × List String) := [
  ("Literal", ["string", "number", "true", "false", "null", "regex"]),
  ("StringLiteral", ["string"]),
  ("NumericLiteral", ["number"]),
  ("BooleanLiteral", ["true", "false"]),
  ("NullLiteral", ["null"]),
  ("RegExpLiteral", ["regex"])]

def jsx : List (String × List String) := [
  ("JSXElement", ["jsx_element", "jsx_self_closing_element"]),
  ("JSXOpeningElement", ["jsx_opening_element", "jsx_self_closing_element"]),
  ("JSXClosingElement", ["jsx_closing_element"]),
  ("JSXAttribute", ["jsx_attribute"]),
  ("JSXExpressionContainer", ["jsx_expression"]),
  ("JSXText", ["jsx_text"]),
  ("JSXNamespacedName", ["jsx_namespace_name"])]

def typeScript : List (String × List String) := [
  ("TSAsExpression", ["as_expression"]),
  ("TSSatisfiesExpression", ["satisfies_expression"]),
  ("TSNonNullExpression", ["non_null_expression"]),
  ("TSTypeAssertion", ["type_assertion"]),
  ("TSTypeAnnotation", ["type_annotation"]),
  ("TSTypeAliasDeclaration", ["type_alias_declaration"]),
  ("TSInterfaceDeclaration", ["interface_declaration"]),
  ("TSInterfaceBody", ["interface_body", "object_type"]),
  ("TSEnumDeclaration", ["enum_declaration"]),
  ("TSModuleDeclaration", ["module", "internal_module"]),
  ("TSTypeReference", ["type_identifier", "generic_type", "nested_type_identifier"]),
  ("TSTypeParameter", ["type_parameter"]),
  ("TSTypeParameterDeclaration", ["type_parameters"]),
  ("TSTypeParameterInstantiation", ["type_arguments"]),
  ("TSUnionType", ["union_type"]),
  ("TSIntersectionType", ["intersection_type"]),
  ("TSArrayType", ["array_type"]),
  ("TSTupleType", ["tuple_type"]),
  ("TSFunctionType", ["function_type"]),
  ("TSTypeLiteral", ["object_type"]),
  ("TSLiteralType", ["literal_type"]),
  ("TSPropertySignature", ["property_signature"]),
  ("TSMethodSignature", ["method_signature"]),
  ("TSDeclareFunction", ["function_signature"]),
  ("TSAbstractMethodDefinition", ["abstract_method_signature"]),
  ("Decorator", ["decorator"])]

/-- The types of node that each ESTree name stands for. -/
def types : List (String × List String) :=
  statements ++ declarations ++ expressions ++ literals ++ jsx ++ typeScript

/-- The types of node that the type of a step stands for. A name that is no ESTree name is a type
itself, in small letters. -/
def nodeTypes (name : String) : List String :=
  match types.lookup name with
  | some ts => ts
  | none => [Text.small name]

end TreeSelect.ESTree
