import ModuleMock.Log
import ModuleMock.Surface.Modules

/-!
# Which modules an analysis consults

`ModuleView.queries` lists the specifiers that the export statements of a module ask for, in order and with
repetitions; `Modules.trace` lists what an analysis says about modules it cannot use.
-/

namespace ModuleMock

open Syntax

namespace Scope

variable (scope : Scope)

/-! ## Names and values -/

/-- The module consulted for a name, if it is an alias of an import. -/
def queriesWithin : Nat → List String → String → List String
  | 0, _, _ => []
  | budget + 1, resolving, name =>
    if name ∈ resolving then []
    else
      match scope.table.lookup name with
      | some (.variable _ (some value)) =>
        let expr := value.unwrap
        if isFunctionExpression expr || (Literal.serialize scope.table expr).isSome then []
        else if expr.isForm .identifier then queriesWithin budget (name :: resolving) expr.text
        else []
      | some (.imported source _) => [source]
      | _ => []

def nameQueries (name : String) : List String := scope.queriesWithin scope.table.length [] name

mutual

/-- The modules consulted for a value. -/
def valueQueries : Node → List String
  | .mk k l e m cs =>
    let n : Node := .mk k l e m cs
    match k with
    | .form .parenthesizedExpression => firstQueries cs
    | .form .asExpression => firstQueries cs
    | .form .satisfiesExpression => firstQueries cs
    | .form .nonNullExpression => firstQueries cs
    | .form .object => memberQueries cs
    | .form .identifier => if (Literal.serialize scope.table n).isSome then [] else scope.nameQueries n.text
    | _ => []

def firstQueries : List Node → List String
  | [] => []
  | c :: cs => if c.isNamed && !c.isForm .comment then valueQueries c else firstQueries cs

/-- The modules consulted for the members of an object literal. -/
def memberQueries : List Node → List String
  | [] => []
  | .mk k l e m cs :: rest =>
    let n : Node := .mk k l e m cs
    match k with
    | .form .pair =>
      match propertyKey? (n.child? .key) with
      | some _ => pairQueries cs ++ memberQueries rest
      | none => memberQueries rest
    | .form .shorthandPropertyIdentifier => scope.nameQueries n.text ++ memberQueries rest
    | _ => memberQueries rest

def pairQueries : List Node → List String
  | [] => []
  | c :: cs => if c.label = some .value then valueQueries c else pairQueries cs

end

end Scope

/-! ## Statements -/

/-- A specifier that is asked for; the exports of a wildcard are skipped if it cannot be read. -/
structure Query where
  specifier : String
  wildcard : Bool := false

namespace ModuleView

variable (v : ModuleView)

def plainQueries (specifiers : List String) : List Query := specifiers.map fun s => ⟨s, false⟩

/-- The modules consulted for a default export when none has been accepted yet. -/
def defaultQueries (subject : Option Node) : List String :=
  match subject with
  | none => []
  | some n =>
    if isFunctionDeclaration n || (isFunctionExpression n && !n.isForm .arrowFunction) then []
    else
      let expr := n.unwrap
      if expr.isForm .object then v.memberQueries expr.children
      else if expr.isForm .identifier then v.nameQueries expr.text
      else []

def declarationQueries (declaration : Node) : List String :=
  let n := unwrapAmbient declaration
  if n.isForm .lexicalDeclaration || n.isForm .variableDeclaration then
    n.namedChildren.flatMap fun d =>
      if d.isForm .variableDeclarator && ((d.child? .name).map (·.isForm .identifier)).getD false then
        ((d.child? .value).map v.valueQueries).getD []
      else []
  else []

/-- The queries of one export statement, given the surface so far. -/
def statementQueries (s : Surface) (statement : Node) : List Query :=
  if statement.hasKeyword "default" then
    if s.default?.isSome then [] else plainQueries (v.defaultQueries (defaultSubject? statement))
  else
    match statement.child? .declaration with
    | some declaration => plainQueries (v.declarationQueries declaration)
    | none =>
      if statement.hasKeyword "type" then []
      else
        match exportGroup? statement, sourceOf statement with
        | some group, source =>
          if group.isForm .exportClause then
            match source with
            | some source => [⟨source, false⟩]
            | none => plainQueries ((group.namedChildren.filterMap specifierNames?).flatMap fun p => v.nameQueries p.1)
          else
            match group.codeChildren.getLast?, source with
            | some _, some source => [⟨source, false⟩]
            | _, _ => []
        | none, some source => if statement.hasKeyword "*" then [⟨source, true⟩] else []
        | none, none => []

/-- The queries of statements in order, from a surface on. -/
def queriesFrom : Surface → List Node → List Query
  | _, [] => []
  | s, statement :: rest => v.statementQueries s statement ++ queriesFrom (v.visitExport s statement) rest

/-- The queries of a module. -/
def queries (root : Node) : List Query := v.queriesFrom (v.initialSurface root) (exportStatements root)

end ModuleView

/-! ## Modules -/

namespace Modules

variable (w : Workspace)

def cycleEntry (candidate importer : String) : LogEntry :=
  ⟨.debug, .analysis, s!"Re-export cycle through {candidate} (from {importer})"⟩

def missingEntry (specifier importer : String) : LogEntry :=
  ⟨.debug, .analysis, s!"Could not read module {Text.shown specifier} imported from {importer}"⟩

def skippedEntry (specifier importer : String) : LogEntry :=
  ⟨.debug, .analysis, s!"Skipping `export * from {Text.shown specifier}` in {importer}: module not readable"⟩

/-- What the analysis of a module says, where at most `budget` modules are nested. -/
def traceWithin : Nat → List Location → String → String → List LogEntry
  | 0, _, _, _ => []
  | budget + 1, ancestors, path, text =>
    let inside := key w path :: ancestors
    let root := Script.parse (dialectOf path) text
    let link (specifier : String) : Option Surface :=
      (search w inside (candidates w.cwd path specifier)).found?.map fun m =>
        surfaceWithin w budget inside m.1.toString m.2
    let view : ModuleView := ⟨⟨DeclarationTable.ofTree root, link⟩, path⟩
    (view.queries root).flatMap fun q =>
      let skipped := if q.wildcard then [skippedEntry q.specifier path] else []
      match search w inside (candidates w.cwd path q.specifier) with
      | .found c text => traceWithin budget inside c.toString text
      | .cycle c => cycleEntry c.toString path :: skipped
      | .missing => missingEntry q.specifier path :: skipped

/-- What the analysis of a module says. -/
def trace (path text : String) : List LogEntry := traceWithin w (budget w) [] path text

end Modules

end ModuleMock
