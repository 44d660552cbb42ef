import ModuleMock.Script.Grammar.Declarations

/-!
# Statements

Statements, and the import and export statements of modules.
-/

namespace ModuleMock.Script.Grammar

open ModuleMock.Syntax

variable (g : Grammar)

/-! ## Imports -/

/-- The module that is named after `from`. -/
def fromClause : Parser Fragment := Parser.sequence [keyword "from", labelled .source string]

/-- A mark that closes a specifier is next. -/
def specifierEnds : Parser Unit := do
  match ← nextChar? with
  | some c => Parser.guard (c == ',' || c == '}')
  | none => Parser.pure ()

/-- A name with an optional alias, possibly marked as a type. -/
def specifier (f : Form) (aliasName : Parser Fragment) : Parser Fragment :=
  let plain : Parser Fragment := do
    let name ← labelled .name exportName
    let alias' ← Parser.optional (Parser.sequence [keyword "as", labelled .asName aliasName])
    specifierEnds
    return name ++ alias'
  phrase f (Parser.firstOf [
    Parser.sequence [keyword "type", plain],
    Parser.sequence [keyword "typeof", plain],
    plain,
    labelled .name exportName])

def namedImports : Parser Fragment :=
  phrase .namedImports (Parser.sequence [
    mark "\x7b", commaList (specifier .importSpecifier anyIdentifier), mark "\x7d"])

def namespaceImport : Parser Fragment :=
  phrase .namespaceImport (Parser.sequence [mark "*", keyword "as", anyIdentifier])

def importClause : Parser Fragment :=
  let grouped := namespaceImport.orElse fun _ => namedImports
  phrase .importClause (grouped.orElse fun _ => Parser.sequence [
    anyIdentifier, Parser.optional (Parser.sequence [mark ",", grouped])])

def importRequireClause : Parser Fragment :=
  phrase .importRequireClause (Parser.sequence [
    anyIdentifier, mark "=", keyword "require", mark "(", labelled .source string, mark ")"])

/-- What follows the keyword of an import. -/
def importRest : Parser Fragment :=
  Parser.firstOf [
    importRequireClause,
    Parser.sequence [importClause, fromClause],
    labelled .source string]

def importStatement : Parser Fragment :=
  phrase .importStatement (Parser.sequence [
    keyword "import",
    Parser.firstOf [
      Parser.sequence [keyword "type", importRest],
      Parser.sequence [keyword "typeof", importRest],
      importRest],
    Parser.optional (phrase .importAttribute (Parser.sequence [
      (keyword "with").orElse fun _ => keyword "assert", object g])),
    semicolon .typed])

/-! ## Exports -/

def exportClause : Parser Fragment :=
  phrase .exportClause (Parser.sequence [
    mark "\x7b", commaList (specifier .exportSpecifier exportName), mark "\x7d"])

def namespaceExport : Parser Fragment :=
  phrase .namespaceExport (Parser.sequence [mark "*", keyword "as", exportName])

/-- What `export default` exports: a declaration, or the value of an expression. -/
def defaultExport : Parser Fragment := do
  let head ← keyword "default"
  let named ← namedFunctionAhead
  let w ← nextWord
  let anonymous := (w == "function" || w == "async") && !named
  if anonymous then return head ++ (← labelled .value (g (.expression .statement))) ++ (← semicolon .statement)
  else
    (do return head ++ (← labelled .declaration (declaration g))).orElse fun _ => do
    return head ++ (← labelled .value (g (.expression .statement))) ++ (← semicolon .statement)

def exportStatement : Parser Fragment :=
  phrase .exportStatement do
    let before ← decorators g
    let head ← keyword "export"
    let rest ← Parser.firstOf [
      Parser.sequence [namespaceExport, fromClause, semicolon .typed],
      Parser.sequence [mark "*", fromClause, semicolon .typed],
      (do
        let clause ← exportClause
        let source ← Parser.optional fromClause
        return clause ++ source ++ (← semicolon .typed)),
      (do
        let clause ← Parser.sequence [keyword "type", exportClause]
        let source ← Parser.optional fromClause
        return clause ++ source ++ (← semicolon .typed)),
      Parser.sequence [assignMark, g (.expression .statement), semicolon .statement],
      Parser.sequence [keyword "as", keyword "namespace", anyIdentifier, semicolon .typed],
      defaultExport g,
      labelled .declaration (exportedDeclaration g)]
    return before ++ head ++ rest

/-! ## Compound statements -/

/-- A condition or subject in parentheses. -/
def header : Parser Fragment :=
  phrase .parenthesizedExpression (Parser.sequence [mark "(", g (.expressions .bracketed), mark ")"])

def ifStatement : Parser Fragment :=
  phrase .ifStatement (Parser.sequence [
    keyword "if", header g, g .statement,
    Parser.optional (phrase .elseClause (Parser.sequence [keyword "else", g .statement]))])

def switchStatement : Parser Fragment :=
  let item : Parser Fragment := do
    let w ← nextWord
    Parser.guard (w != "case" && w != "default")
    g .statement
  phrase .switchStatement (Parser.sequence [
    keyword "switch", header g,
    phrase .switchBody (Parser.sequence [
      mark "\x7b",
      Parser.many (Parser.firstOf [
        phrase .switchCase (Parser.sequence [
          keyword "case", g (.expressions .bracketed), mark ":", Parser.many item]),
        phrase .switchDefault (Parser.sequence [keyword "default", mark ":", Parser.many item])]),
      mark "\x7d"])])

/-- The head of a loop over the members of a value. -/
def memberLoopHead : Parser Fragment := do
  let «open» ← mark "("
  let target ← (do
      let w ← nextWord
      Parser.guard (w == "var" || w == "let" || w == "const")
      Parser.sequence [
        keyword w, labelled .left (binding g),
        Parser.optional (Parser.sequence [assignMark, g (.unary .bracketed)])]).orElse fun _ =>
    labelled .left ((g (.unary .bracketed)).orElse fun _ => destructuring g)
  let operator ← (keyword "in").orElse fun _ => keyword "of"
  let rest ← Parser.sequence [labelled .right (g (.expressions .bracketed)), mark ")"]
  return «open» ++ target ++ operator ++ rest

/-- The head of a loop with a counter. -/
def counterLoopHead : Parser Fragment :=
  Parser.sequence [
    mark "(",
    Parser.firstOf [
      lexicalDeclaration g,
      variableDeclaration g,
      Parser.sequence [g (.expressions .bracketed), mark ";"],
      mark ";"],
    (Parser.sequence [g (.expressions .bracketed), mark ";"]).orElse fun _ => mark ";",
    Parser.optional (g (.expressions .bracketed)),
    mark ")"]

def forStatement : Parser Fragment :=
  (phrase .forInStatement (Parser.sequence [
    keyword "for", Parser.optional (keyword "await"), memberLoopHead g, g .statement])).orElse fun _ =>
  phrase .forStatement (Parser.sequence [keyword "for", counterLoopHead g, g .statement])

def whileStatement : Parser Fragment :=
  phrase .whileStatement (Parser.sequence [keyword "while", header g, g .statement])

def doStatement : Parser Fragment :=
  phrase .doStatement (Parser.sequence [
    keyword "do", g .statement, keyword "while", header g, Parser.optional (semicolon .typed)])

def tryStatement : Parser Fragment :=
  phrase .tryStatement (Parser.sequence [
    keyword "try", g .block,
    Parser.optional (phrase .catchClause (Parser.sequence [
      keyword "catch",
      Parser.optional (Parser.sequence [mark "(", binding g, annotated g .bracketed, mark ")"]),
      g .block])),
    Parser.optional (phrase .finallyClause (Parser.sequence [keyword "finally", g .block]))])

def withStatement : Parser Fragment :=
  phrase .withStatement (Parser.sequence [keyword "with", header g, g .statement])

/-! ## Simple statements -/

/-- `break` or `continue`, with the label of a loop. -/
def jump (f : Form) (w : String) : Parser Fragment :=
  phrase f do
    let head ← keyword w
    if ← pauses .typed then return head ++ (← semicolon .typed)
    return head ++ (← Parser.optional (word .statementIdentifier)) ++ (← semicolon .typed)

def returnStatement : Parser Fragment :=
  phrase .returnStatement do
    let head ← keyword "return"
    if ← pauses .typed then return head ++ (← semicolon .typed)
    (do return head ++ (← g (.expressions .statement)) ++ (← semicolon .statement)).orElse fun _ => do
    return head ++ (← semicolon .typed)

def expressionStatement : Parser Fragment :=
  phrase .expressionStatement (Parser.sequence [g (.expressions .statement), semicolon .statement])

def labeledStatement : Parser Fragment :=
  phrase .labeledStatement (Parser.sequence [word .statementIdentifier, mark ":", g .statement])

/-- Statements that start with one of their own keywords. -/
def keywordStatement? (w : String) : Option (Parser Fragment) :=
  match w with
  | "if" => some (ifStatement g)
  | "switch" => some (switchStatement g)
  | "for" => some (forStatement g)
  | "while" => some (whileStatement g)
  | "do" => some (doStatement g)
  | "try" => some (tryStatement g)
  | "with" => some (withStatement g)
  | "break" => some (jump .breakStatement "break")
  | "continue" => some (jump .continueStatement "continue")
  | "return" => some (returnStatement g)
  | "throw" =>
    some (phrase .throwStatement (Parser.sequence [keyword "throw", g (.expressions .statement), semicolon .statement]))
  | "debugger" => some (phrase .debuggerStatement (Parser.sequence [keyword "debugger", semicolon .typed]))
  | "var" => some (variableDeclaration g)
  | "const" => some (plainDeclaration g)
  | "interface" => some (interfaceDeclaration g)
  | "enum" => some (enumDeclaration g)
  | "abstract" => some (abstractClassDeclaration g)
  | _ => none

/-- Words that may start a declaration and are names elsewhere. -/
def declarationWords : List String :=
  ["let", "async", "type", "declare", "namespace", "module"]

def wordStatement (w : String) : Parser Fragment :=
  match keywordStatement? g w with
  | some p => p
  | none =>
    match w with
    | "export" => (exportStatement g).orElse fun _ => expressionStatement g
    | "import" => Parser.firstOf [importStatement g, importAlias, expressionStatement g]
    | "function" => do
      if ← namedFunctionAhead then functionDeclaration g else expressionStatement g
    | "class" => do
      if ← Parser.ahead (Parser.sequence [keyword "class", className]) then classDeclaration g
      else expressionStatement g
    | _ => do
      if ← Parser.ahead (Parser.sequence [anyIdentifier, mark ":"]) then
        if !reservedOperandWords.contains w then return ← labeledStatement g
      if declarationWords.contains w then (declaration g).orElse fun _ => expressionStatement g
      else expressionStatement g

def statement : Parser Fragment := do
  let w ← nextWord
  if w != "" then wordStatement g w
  else
    match ← nextChar? with
    | some '{' => (g .block).orElse fun _ => expressionStatement g
    | some ';' => phrase .emptyStatement (mark ";")
    | some '@' => Parser.firstOf [exportStatement g, declaration g, expressionStatement g]
    | _ => expressionStatement g

def statements : Parser Fragment := Parser.many (markupComment.orElse fun _ => g .statement)

/-- Statements in braces. -/
def block : Parser Fragment :=
  phrase .statementBlock (Parser.sequence [mark "\x7b", statements g, mark "\x7d", looseEnd])

end ModuleMock.Script.Grammar
