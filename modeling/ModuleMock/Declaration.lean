import ModuleMock.OrderedMap
import ModuleMock.Syntax.Node

/-!
# Declarations of a module

The table of declarations maps every name that a module declares, at any depth, to its last declaration in source
order. Patterns that take values apart declare nothing here.

- `collect`: one walk over the tree, writing declarations into a table;
- `importBindings`: what an import statement binds.
-/

namespace ModuleMock

open Syntax

inductive Declaration where
  /-- A declarator with its initial value. -/
  | variable (node : Node) (value : Option Node)
  | function (node : Node)
  /-- A name imported from a module: its name there, `default`, or `*` for the whole module. -/
  | imported (source name : String)

abbrev DeclarationTable := OrderedMap Declaration

def isFunctionDeclaration (n : Node) : Bool :=
  n.isForm .functionDeclaration || n.isForm .generatorFunctionDeclaration || n.isForm .functionSignature

def isFunctionExpression (n : Node) : Bool :=
  n.isForm .arrowFunction || n.isForm .functionExpression || n.isForm .generatorFunction

/-- Names under which modules export and import are identifiers or strings. -/
def moduleName (n : Node) : String := if n.isForm .string then n.stringValue else n.text

/-! ## Imports -/

/-- The binding of one specifier in braces. -/
def specifierBinding? (source : String) (n : Node) : Option (String × Declaration) :=
  if n.isForm .importSpecifier then
    (n.child? .name).map fun name =>
      let bound := match n.child? .asName with
        | some a => a.text
        | none => moduleName name
      (bound, .imported source (moduleName name))
  else none

/-- What one part of an import clause binds. -/
def clauseBindings (source : String) (part : Node) : List (String × Declaration) :=
  if part.isForm .identifier then [(part.text, .imported source "default")]
  else if part.isForm .namespaceImport then
    (part.namedChildren.filter (·.isForm .identifier)).map fun i => (i.text, .imported source "*")
  else if part.isForm .namedImports then part.namedChildren.filterMap (specifierBinding? source)
  else []

/-- What an import statement binds, in written order. -/
def importBindings (statement : Node) : List (String × Declaration) :=
  match statement.child? .source with
  | none => []
  | some source =>
    (statement.namedChildren.filter (·.isForm .importClause)).flatMap fun clause =>
      clause.namedChildren.flatMap (clauseBindings source.stringValue)

/-! ## The table -/

/-- What a node itself declares, apart from its descendants. -/
def ownBindings (n : Node) : List (String × Declaration) :=
  if n.isForm .variableDeclarator then
    match n.child? .name with
    | some name => if name.isForm .identifier then [(name.text, .variable n (n.child? .value))] else []
    | none => []
  else if isFunctionDeclaration n then
    match n.child? .name with
    | some name => [(name.text, .function n)]
    | none => []
  else if n.isForm .importStatement then importBindings n
  else []

mutual

/-- Writes the declarations at and below a node into a table. Nothing below an import statement is looked at. -/
def collect (table : DeclarationTable) : Node → DeclarationTable
  | .mk k l e m cs =>
    let own := OrderedMap.update table (ownBindings (.mk k l e m cs))
    if k = .form .importStatement then own else collectAll own cs

def collectAll (table : DeclarationTable) : List Node → DeclarationTable
  | [] => table
  | n :: ns => collectAll (collect table n) ns

end

/-- The table of declarations of a module. -/
def DeclarationTable.ofTree (root : Node) : DeclarationTable := collect [] root

end ModuleMock
