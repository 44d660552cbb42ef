import ModuleMock.Script.Grammar.Expressions

/-!
# Declarations

Variables, functions, classes, and the declarations that exist for the type checker only.
-/

namespace ModuleMock.Script.Grammar

open ModuleMock.Syntax

variable (g : Grammar)

/-- An end of statement that is not written but may still take in comments on the same line. -/
def looseEnd : Parser Fragment := Parser.optional (pause .statement)

/-! ## Variables -/

def declarator : Parser Fragment :=
  phrase .variableDeclarator do
    let name ← labelled .name (binding g)
    let bang ← Parser.optional (markNot "!" ["!="])
    let type ← annotated g .typed
    let value ← Parser.optional (Parser.sequence [assignMark, labelled .value (g (.expression .statement))])
    return name ++ bang ++ type ++ value

/-- How a list of declarators may end at a line break. -/
def declaratorsEnding (declarators : Fragment) : Ending :=
  if (declarators.getLast?.bind (·.child? .value)).isSome then .statement else .typed

/-- Declarators after their keyword, with the end of the statement. -/
def declarators : Parser Fragment := do
  let all ← commaSeparated1 (declarator g)
  return all ++ (← semicolon (declaratorsEnding all))

def lexicalDeclaration : Parser Fragment :=
  phrase .lexicalDeclaration (Parser.sequence [(keyword "const").orElse fun _ => keyword "let", declarators g])

def variableDeclaration : Parser Fragment :=
  phrase .variableDeclaration (Parser.sequence [keyword "var", declarators g])

/-! ## Functions -/

/-- A named function, or the signature of one whose body is elsewhere. -/
def functionDeclaration : Parser Fragment := do
  let extras ← trivia
  let start ← Parser.here
  let head ← Parser.sequence [Parser.optional (keyword "async"), keyword "function"]
  let star ← Parser.optional (mark "*")
  let name ← labelled .name anyIdentifier
  let types ← signature g .typed
  if ← nextIsMark "\x7b" then
    let body ← g .block
    let stop ← looseEnd
    let form := if star.isEmpty then Form.functionDeclaration else .generatorFunctionDeclaration
    return extras ++ [← extend start form (head ++ star ++ name ++ types ++ body ++ stop)]
  else
    Parser.guard star.isEmpty
    let stop ← signatureEnd
    return extras ++ [← extend start .functionSignature (head ++ name ++ types ++ stop)]

/-- Does a function with a name follow? -/
def namedFunctionAhead : Parser Bool :=
  Parser.ahead (Parser.sequence [
    Parser.optional (keyword "async"), keyword "function", Parser.optional (mark "*"), anyIdentifier])

/-! ## Classes and types -/

def classDeclaration : Parser Fragment :=
  phrase .classDeclaration (Parser.sequence [
    decorators g, keyword "class", className, Parser.optional (typeParameters g), heritage g, g .classBody, looseEnd])

def abstractClassDeclaration : Parser Fragment :=
  classWith g .abstractClassDeclaration (keyword "abstract") className

def interfaceDeclaration : Parser Fragment :=
  phrase .interfaceDeclaration (Parser.sequence [
    keyword "interface", labelled .name (word .typeIdentifier), Parser.optional (typeParameters g),
    Parser.optional (phrase .extendsTypeClause (Parser.sequence [
      keyword "extends", commaSeparated1 (g (.type .bracketed))])),
    g (.objectType .interfaceBody)])

def typeAlias : Parser Fragment :=
  phrase .typeAliasDeclaration (Parser.sequence [
    keyword "type", labelled .name (word .typeIdentifier), Parser.optional (typeParameters g), mark "=",
    g (.type .typed), semicolon .typed])

def enumMember : Parser Fragment := do
  let extras ← trivia
  let start ← Parser.here
  let name ← propertyName g
  (do
    let value ← Parser.sequence [mark "=", g (.expression .bracketed)]
    return extras ++ [← extend start .enumAssignment (name ++ value)]).orElse fun _ =>
  Parser.pure (extras ++ name)

def enumDeclaration : Parser Fragment :=
  phrase .enumDeclaration (Parser.sequence [
    Parser.optional (keyword "const"), keyword "enum", labelled .name anyIdentifier,
    phrase .enumBody (Parser.sequence [mark "\x7b", commaList (enumMember g), mark "\x7d"])])

/-! ## Namespaces and ambient declarations -/

/-- A dotted path of names. -/
def dottedName : Parser Fragment := do
  let extras ← trivia
  let start ← Parser.here
  let first ← anyIdentifier
  let path ← Parser.many (Parser.sequence [mark ".", anyIdentifier])
  if path.isEmpty then return extras ++ first
  else return extras ++ [← extend start .nestedIdentifier (first ++ path)]

/-- The name and body of a module or namespace. -/
def moduleRest : Parser Fragment :=
  Parser.sequence [labelled .name (string.orElse fun _ => dottedName), Parser.optional (g .block)]

/-- A word that introduces a declaration only if what it declares starts on the same line. -/
def contextual (w : String) : Parser Fragment := do
  let read ← keyword w
  Parser.guard (!(← pauses .statement))
  return read

def moduleDeclaration : Parser Fragment :=
  phrase .moduleDeclaration (Parser.sequence [contextual "module", moduleRest g])

def namespaceDeclaration : Parser Fragment :=
  phrase .internalModule (Parser.sequence [contextual "namespace", moduleRest g])

def importAlias : Parser Fragment :=
  phrase .importAlias (Parser.sequence [keyword "import", anyIdentifier, mark "=", dottedName, semicolon .typed])

/-- Declarations other than ambient ones. -/
def plainDeclaration : Parser Fragment := do
  match ← nextWord with
  | "const" => do
    if ← Parser.ahead (Parser.sequence [keyword "const", keyword "enum"]) then enumDeclaration g
    else lexicalDeclaration g
  | "let" => lexicalDeclaration g
  | "var" => variableDeclaration g
  | "function" => functionDeclaration g
  | "async" => do
    let head ← contextual "async" |> Parser.ahead
    Parser.guard (head && (← namedFunctionAhead))
    functionDeclaration g
  | "class" => classDeclaration g
  | "abstract" => abstractClassDeclaration g
  | "interface" => interfaceDeclaration g
  | "enum" => enumDeclaration g
  | "type" => do
    Parser.guard (← Parser.ahead (contextual "type"))
    typeAlias g
  | "module" => moduleDeclaration g
  | "namespace" => namespaceDeclaration g
  | "import" => importAlias
  | "" => (classDeclaration g).orElse fun _ => abstractClassDeclaration g
  | _ => Parser.fail

/-- A declaration of something that exists elsewhere, which the head says. -/
def ambientDeclaration (head : Parser Fragment) : Parser Fragment :=
  phrase .ambientDeclaration (Parser.sequence [
    head,
    Parser.firstOf [
      Parser.sequence [keyword "global", g .block],
      plainDeclaration g,
      Parser.sequence [
        keyword "module", mark ".", word .propertyIdentifier, mark ":", g (.type .typed), semicolon .typed]]])

def declaration : Parser Fragment := do
  if (← nextWord) == "declare" then ambientDeclaration g (contextual "declare") else plainDeclaration g

/-- A declaration after `export`, where `declare` cannot be a name: what it declares may start on a later line. -/
def exportedDeclaration : Parser Fragment := do
  if (← nextWord) == "declare" then ambientDeclaration g (Parser.sequence [keyword "declare", markupComments])
  else plainDeclaration g

end ModuleMock.Script.Grammar
