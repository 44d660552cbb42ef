/-!
# Kinds and labels of syntax nodes

- `Form`: the named kinds of nodes of a TypeScript or TSX concrete syntax tree, with the names used in diagnostics
  (`Form.name`);
- `Kind`: a named form, or the spelling of a keyword or punctuation mark;
- `Label`: the roles of children that the analyses ask for by name.
-/

namespace ModuleMock.Syntax

/-- Named kinds of nodes. -/
inductive Form where
  | program | error | comment | htmlComment | hashBangLine
  -- modules
  | exportStatement | exportClause | exportSpecifier | namespaceExport
  | importStatement | importClause | namespaceImport | namedImports | importSpecifier | importAttribute
  | importRequireClause | importAlias
  -- declarations
  | lexicalDeclaration | variableDeclaration | variableDeclarator
  | functionDeclaration | generatorFunctionDeclaration | functionSignature
  | classDeclaration | abstractClassDeclaration | classHeritage | extendsClause | implementsClause | classBody
  | classStaticBlock | methodDefinition | methodSignature | abstractMethodSignature | publicFieldDefinition
  | indexSignature | accessibilityModifier | overrideModifier | decorator
  | interfaceDeclaration | interfaceBody | extendsTypeClause | typeAliasDeclaration
  | enumDeclaration | enumBody | enumAssignment
  | ambientDeclaration | moduleDeclaration | internalModule
  -- statements
  | expressionStatement | statementBlock | emptyStatement | ifStatement | elseClause | switchStatement | switchBody
  | switchCase | switchDefault | forStatement | forInStatement | whileStatement | doStatement | tryStatement
  | catchClause | finallyClause | withStatement | breakStatement | continueStatement | debuggerStatement
  | returnStatement | throwStatement | labeledStatement | statementIdentifier
  -- expressions
  | parenthesizedExpression | sequenceExpression | assignmentExpression | augmentedAssignmentExpression
  | awaitExpression | unaryExpression | binaryExpression | ternaryExpression | updateExpression | newExpression
  | yieldExpression | asExpression | satisfiesExpression | nonNullExpression | instantiationExpression | typeAssertion
  | subscriptExpression | memberExpression | callExpression | arguments | optionalChain | metaProperty
  | identifier | undefinedWord | thisWord | superWord | importWord | trueWord | falseWord | nullWord
  | number | string | templateString | templateSubstitution | regex
  | object | pair | spreadElement | shorthandPropertyIdentifier | propertyIdentifier | privatePropertyIdentifier
  | computedPropertyName | array | functionExpression | generatorFunction | arrowFunction | classExpression
  -- patterns and parameters
  | objectPattern | arrayPattern | pairPattern | restPattern | assignmentPattern | objectAssignmentPattern
  | shorthandPropertyIdentifierPattern | formalParameters | requiredParameter | optionalParameter
  -- types
  | typeAscription | assertsAscription | predicateAscription | assertion | typePredicate
  | typeIdentifier | nestedIdentifier | nestedTypeIdentifier | genericType | typeArguments | typeParameters
  | typeParameter | typeConstraint | defaultType | predefinedType | literalType | thisType | parenthesizedType
  | arrayType | tupleType | optionalType | restType | unionType | intersectionType | conditionalType | inferType
  | functionType | constructorType | readonlyType | typeQuery | indexTypeQuery | lookupType | templateLiteralType
  | templateType | existentialType | flowMaybeType | objectType | propertySignature | callSignature
  | constructSignature | mappedTypeClause
  -- embedded markup
  | jsxElement | jsxSelfClosingElement | jsxOpeningElement | jsxClosingElement | jsxExpression | jsxText
  | jsxAttribute | jsxNamespaceName | htmlCharacterReference
deriving DecidableEq

/-- The name of a form in diagnostics. -/
def Form.name : Form → String
  | .program => "program" | .error => "ERROR" | .comment => "comment" | .htmlComment => "html_comment"
  | .hashBangLine => "hash_bang_line"
  | .exportStatement => "export_statement" | .exportClause => "export_clause"
  | .exportSpecifier => "export_specifier" | .namespaceExport => "namespace_export"
  | .importStatement => "import_statement" | .importClause => "import_clause"
  | .namespaceImport => "namespace_import" | .namedImports => "named_imports"
  | .importSpecifier => "import_specifier" | .importAttribute => "import_attribute"
  | .importRequireClause => "import_require_clause" | .importAlias => "import_alias"
  | .lexicalDeclaration => "lexical_declaration" | .variableDeclaration => "variable_declaration"
  | .variableDeclarator => "variable_declarator" | .functionDeclaration => "function_declaration"
  | .generatorFunctionDeclaration => "generator_function_declaration" | .functionSignature => "function_signature"
  | .classDeclaration => "class_declaration" | .abstractClassDeclaration => "abstract_class_declaration"
  | .classHeritage => "class_heritage" | .extendsClause => "extends_clause"
  | .implementsClause => "implements_clause" | .classBody => "class_body"
  | .classStaticBlock => "class_static_block" | .methodDefinition => "method_definition"
  | .methodSignature => "method_signature" | .abstractMethodSignature => "abstract_method_signature"
  | .publicFieldDefinition => "public_field_definition" | .indexSignature => "index_signature"
  | .accessibilityModifier => "accessibility_modifier" | .overrideModifier => "override_modifier"
  | .decorator => "decorator" | .interfaceDeclaration => "interface_declaration"
  | .interfaceBody => "interface_body" | .extendsTypeClause => "extends_type_clause"
  | .typeAliasDeclaration => "type_alias_declaration" | .enumDeclaration => "enum_declaration"
  | .enumBody => "enum_body" | .enumAssignment => "enum_assignment"
  | .ambientDeclaration => "ambient_declaration" | .moduleDeclaration => "module"
  | .internalModule => "internal_module"
  | .expressionStatement => "expression_statement" | .statementBlock => "statement_block"
  | .emptyStatement => "empty_statement" | .ifStatement => "if_statement" | .elseClause => "else_clause"
  | .switchStatement => "switch_statement" | .switchBody => "switch_body" | .switchCase => "switch_case"
  | .switchDefault => "switch_default" | .forStatement => "for_statement" | .forInStatement => "for_in_statement"
  | .whileStatement => "while_statement" | .doStatement => "do_statement" | .tryStatement => "try_statement"
  | .catchClause => "catch_clause" | .finallyClause => "finally_clause" | .withStatement => "with_statement"
  | .breakStatement => "break_statement" | .continueStatement => "continue_statement"
  | .debuggerStatement => "debugger_statement" | .returnStatement => "return_statement"
  | .throwStatement => "throw_statement" | .labeledStatement => "labeled_statement"
  | .statementIdentifier => "statement_identifier"
  | .parenthesizedExpression => "parenthesized_expression" | .sequenceExpression => "sequence_expression"
  | .assignmentExpression => "assignment_expression"
  | .augmentedAssignmentExpression => "augmented_assignment_expression" | .awaitExpression => "await_expression"
  | .unaryExpression => "unary_expression" | .binaryExpression => "binary_expression"
  | .ternaryExpression => "ternary_expression" | .updateExpression => "update_expression"
  | .newExpression => "new_expression" | .yieldExpression => "yield_expression" | .asExpression => "as_expression"
  | .satisfiesExpression => "satisfies_expression" | .nonNullExpression => "non_null_expression"
  | .instantiationExpression => "instantiation_expression" | .typeAssertion => "type_assertion"
  | .subscriptExpression => "subscript_expression" | .memberExpression => "member_expression"
  | .callExpression => "call_expression" | .arguments => "arguments" | .optionalChain => "optional_chain"
  | .metaProperty => "meta_property"
  | .identifier => "identifier" | .undefinedWord => "undefined" | .thisWord => "this" | .superWord => "super"
  | .importWord => "import" | .trueWord => "true" | .falseWord => "false" | .nullWord => "null"
  | .number => "number" | .string => "string" | .templateString => "template_string"
  | .templateSubstitution => "template_substitution" | .regex => "regex"
  | .object => "object" | .pair => "pair" | .spreadElement => "spread_element"
  | .shorthandPropertyIdentifier => "shorthand_property_identifier" | .propertyIdentifier => "property_identifier"
  | .privatePropertyIdentifier => "private_property_identifier" | .computedPropertyName => "computed_property_name"
  | .array => "array" | .functionExpression => "function_expression" | .generatorFunction => "generator_function"
  | .arrowFunction => "arrow_function" | .classExpression => "class"
  | .objectPattern => "object_pattern" | .arrayPattern => "array_pattern" | .pairPattern => "pair_pattern"
  | .restPattern => "rest_pattern" | .assignmentPattern => "assignment_pattern"
  | .objectAssignmentPattern => "object_assignment_pattern"
  | .shorthandPropertyIdentifierPattern => "shorthand_property_identifier_pattern"
  | .formalParameters => "formal_parameters" | .requiredParameter => "required_parameter"
  | .optionalParameter => "optional_parameter"
  | .typeAscription => "type_annotation" | .assertsAscription => "asserts_annotation"
  | .predicateAscription => "type_predicate_annotation" | .assertion => "asserts"
  | .typePredicate => "type_predicate" | .typeIdentifier => "type_identifier"
  | .nestedIdentifier => "nested_identifier" | .nestedTypeIdentifier => "nested_type_identifier"
  | .genericType => "generic_type" | .typeArguments => "type_arguments" | .typeParameters => "type_parameters"
  | .typeParameter => "type_parameter" | .typeConstraint => "constraint" | .defaultType => "default_type"
  | .predefinedType => "predefined_type" | .literalType => "literal_type" | .thisType => "this_type"
  | .parenthesizedType => "parenthesized_type" | .arrayType => "array_type" | .tupleType => "tuple_type"
  | .optionalType => "optional_type" | .restType => "rest_type" | .unionType => "union_type"
  | .intersectionType => "intersection_type" | .conditionalType => "conditional_type" | .inferType => "infer_type"
  | .functionType => "function_type" | .constructorType => "constructor_type" | .readonlyType => "readonly_type"
  | .typeQuery => "type_query" | .indexTypeQuery => "index_type_query" | .lookupType => "lookup_type"
  | .templateLiteralType => "template_literal_type" | .templateType => "template_type"
  | .existentialType => "existential_type" | .flowMaybeType => "flow_maybe_type" | .objectType => "object_type"
  | .propertySignature => "property_signature" | .callSignature => "call_signature"
  | .constructSignature => "construct_signature" | .mappedTypeClause => "mapped_type_clause"
  | .jsxElement => "jsx_element" | .jsxSelfClosingElement => "jsx_self_closing_element"
  | .jsxOpeningElement => "jsx_opening_element" | .jsxClosingElement => "jsx_closing_element"
  | .jsxExpression => "jsx_expression" | .jsxText => "jsx_text" | .jsxAttribute => "jsx_attribute"
  | .jsxNamespaceName => "jsx_namespace_name" | .htmlCharacterReference => "html_character_reference"

/-- What a node is: a named form, or a keyword or punctuation mark with its spelling. -/
inductive Kind where
  | form (f : Form)
  | token (spelling : String)
deriving DecidableEq

/-- The name of a kind in diagnostics. -/
def Kind.name : Kind → String
  | .form f => f.name
  | .token spelling => spelling

/-- Roles of children within their parent. -/
inductive Label where
  | name | value | declaration | source | asName | parameters | parameter | returnType | pattern | left | right
  | callee | arguments | object | property | key
deriving DecidableEq

end ModuleMock.Syntax
