import ModuleMock.Surface.Classify

/-!
# Export statements

The surface of one module, given the surfaces of the modules it names. Statements are read in order: a later export of
a name replaces an earlier one, and the first default export that can be described stays.
-/

namespace ModuleMock

open Syntax

/-- Diagnostics of a module. Lines count from one. -/
inductive Diagnostic where
  | faultAt (line : Nat)
  | duplicateDefault (line : Nat)
  /-- A function without a name, or a function in parentheses. -/
  | anonymousDefault (line : Nat)
  | anonymousExpression (line : Nat)
  | unsupportedDefault (shape : String) (line : Nat)

/-- What can be exported instead. -/
def supportedShapes : String := "export an object literal, an identifier or a named function"

/-- The text of a diagnostic about the module at a path. -/
def Diagnostic.message (path : String) : Diagnostic → String
  | .faultAt line => s!"Syntax error in {path} at line {line}"
  | .duplicateDefault line => s!"Duplicate default export in {path} at line {line}; keeping the first one"
  | .anonymousDefault line => s!"Anonymous default export in {path} at line {line} is not supported"
  | .anonymousExpression line =>
    s!"Anonymous default export in {path} at line {line} is not supported; {supportedShapes}"
  | .unsupportedDefault shape line =>
    s!"Unsupported default export ({shape}) in {path} at line {line}; {supportedShapes}"

namespace Surface

def report (s : Surface) (path : String) (d : Diagnostic) : Surface :=
  { s with errors := s.errors ++ [d.message path] }

def put (s : Surface) (name : String) (e : Entity) : Surface := { s with named := OrderedMap.put s.named name e }

end Surface

/-- A module being read: its path and what its expressions are read against. -/
structure ModuleView extends Scope where
  path : String

namespace ModuleView

variable (v : ModuleView)

/-! ## Default exports -/

/-- What a default export exports: its declaration, or its value. -/
def defaultSubject? (statement : Node) : Option Node :=
  (statement.child? .declaration) <|> (statement.child? .value)

/-- Reads a default export when none has been accepted yet. -/
def firstDefault (s : Surface) (line : Nat) (subject : Option Node) : Surface :=
  match subject with
  | none => s.report v.path (.unsupportedDefault "empty" line)
  | some n =>
    if isFunctionDeclaration n || (isFunctionExpression n && !n.isForm .arrowFunction) then
      match n.child? .name with
      | none => s.report v.path (.anonymousDefault line)
      | some name =>
        { s.put name.text (.ofFunction n) with default? := some [(name.text, .ofFunction n)] }
    else
      let expr := n.unwrap
      if expr.isForm .object then { s with default? := some (v.expand [] expr.children) }
      else if expr.isForm .identifier then { s with default? := some [(expr.text, v.resolve expr.text)] }
      else if isFunctionExpression expr then s.report v.path (.anonymousExpression line)
      else s.report v.path (.unsupportedDefault expr.kind.name line)

def visitDefault (s : Surface) (statement : Node) : Surface :=
  match s.default? with
  | some _ => s.report v.path (.duplicateDefault statement.line)
  | none => v.firstDefault s statement.line (defaultSubject? statement)

/-! ## Declarations -/

/-- The declaration under `declare`. -/
def unwrapAmbient (n : Node) : Node :=
  if n.isForm .ambientDeclaration then
    match _h : n.codeChildren.head? with
    | some c => unwrapAmbient c
    | none => n
  else n
termination_by sizeOf n
decreasing_by exact Node.sizeOf_lt_of_mem_children (Node.mem_children_of_head?_codeChildren ‹_›)

/-- Exports of the declarators of a variable declaration; patterns export nothing. -/
def visitDeclarator (s : Surface) (declarator : Node) : Surface :=
  if declarator.isForm .variableDeclarator then
    match declarator.child? .name with
    | some name =>
      if name.isForm .identifier then
        s.put name.text (match declarator.child? .value with
          | some value => v.classify value
          | none => .unknown)
      else s
    | none => s
  else s

def visitDeclaration (s : Surface) (declaration : Node) : Surface :=
  let n := unwrapAmbient declaration
  if n.isForm .lexicalDeclaration || n.isForm .variableDeclaration then
    n.namedChildren.foldl v.visitDeclarator s
  else if isFunctionDeclaration n then
    match n.child? .name with
    | some name => s.put name.text (.ofFunction n)
    | none => s
  else s

/-! ## Lists and re-exports -/

/-- The name of an export specifier in its module and the name it is exported under; types export nothing. -/
def specifierNames? (n : Node) : Option (String × String) :=
  if n.isForm .exportSpecifier && !n.hasKeyword "type" then
    (n.child? .name).map fun name =>
      match n.child? .asName with
      | some a => (moduleName name, moduleName a)
      | none => (moduleName name, moduleName name)
  else none

/-- Exports of a list in braces, of this module or of the one it names. -/
def visitClause (s : Surface) (clause : Node) (source : Option String) : Surface :=
  let specifiers := clause.namedChildren.filterMap specifierNames?
  match source with
  | none => specifiers.foldl (fun s (name, exported) => s.put exported (v.resolve name)) s
  | some source =>
    let target := v.link source
    specifiers.foldl (fun s (name, exported) => s.put exported (entityFrom target name)) s

def visitNamespace (s : Surface) (n : Node) (source : Option String) : Surface :=
  match n.codeChildren.getLast?, source with
  | some name, some source => s.put (moduleName name) (entityFrom (v.link source) "*")
  | _, _ => s

def visitWildcard (s : Surface) (source : String) : Surface :=
  match v.link source with
  | some target => { s with named := OrderedMap.update s.named target.named }
  | none => s

/-- The list or namespace that an export statement names. -/
def exportGroup? (statement : Node) : Option Node :=
  statement.namedChildren.find? fun c => c.isForm .exportClause || c.isForm .namespaceExport

/-- The module that a statement names. -/
def sourceOf (statement : Node) : Option String := (statement.child? .source).map (·.stringValue)

def visitExport (s : Surface) (statement : Node) : Surface :=
  if statement.hasKeyword "default" then v.visitDefault s statement
  else
    match statement.child? .declaration with
    | some declaration => v.visitDeclaration s declaration
    | none =>
      if statement.hasKeyword "type" then s
      else
        match exportGroup? statement with
        | some group =>
          if group.isForm .exportClause then v.visitClause s group (sourceOf statement)
          else v.visitNamespace s group (sourceOf statement)
        | none =>
          match sourceOf statement with
          | some source => if statement.hasKeyword "*" then v.visitWildcard s source else s
          | none => s

/-! ## Modules -/

/-- The export statements of a module. -/
def exportStatements (root : Node) : List Node := root.children.filter (·.isForm .exportStatement)

/-- The surface before any export is read: it reports the first fault of the tree. -/
def initialSurface (root : Node) : Surface :=
  match root.firstFault? with
  | some n => ({} : Surface).report v.path (.faultAt n.line)
  | none => {}

/-- The surface of the module with the given tree. -/
def surface (root : Node) : Surface := (exportStatements root).foldl v.visitExport (v.initialSurface root)

end ModuleView

/-- The surface of a module, given its path, its tree and the surfaces of the modules it names. -/
def Surface.ofTree (path : String) (root : Syntax.Node) (link : String → Option Surface) : Surface :=
  ModuleView.surface ⟨⟨DeclarationTable.ofTree root, link⟩, path⟩ root

end ModuleMock
