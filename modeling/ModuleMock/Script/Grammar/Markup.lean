import ModuleMock.Script.Grammar.Expressions

/-!
# Embedded markup

Elements, their attributes and their text.
-/

namespace ModuleMock.Script.Grammar

open ModuleMock.Syntax

variable (g : Grammar)

/-- Names of elements and attributes may contain hyphens. -/
def markupNameLength? (cs : List Char) : Option Nat :=
  match cs with
  | [] => none
  | c :: _ =>
    let isPart (c : Char) : Bool := c.isAlphanum || c == '_' || c == '$'
    let hyphenated :=
      if isPart c && !isDigit c then
        let n := (cs.takeWhile isPart).length
        if (cs.drop n).head? == some '-' then
          some (n + ((cs.drop n).takeWhile fun c => isPart c || c == '-').length)
        else none
      else none
    match hyphenated, wordLength? cs with
    | some a, some b => some (max a b)
    | some a, none => some a
    | none, b => b

def markupName : Parser Fragment := lexeme (.form .identifier) markupNameLength?

/-- A name, a name with a namespace, or a dotted path. -/
def elementName : Parser Fragment := do
  let extras ← trivia
  let start ← Parser.here
  let first ← markupName
  (do
    let rest ← Parser.sequence [mark ":", markupName]
    return extras ++ [← extend start .jsxNamespaceName (first ++ rest)]).orElse fun _ => do
  let path ← Parser.many (Parser.sequence [mark ".", markupName])
  if path.isEmpty then return extras ++ first
  else return extras ++ [← extend start .memberExpression (first ++ path)]

/-- An expression in braces among text or attributes. -/
def embedded : Parser Fragment :=
  phrase .jsxExpression (Parser.sequence [
    mark "\x7b", Parser.optional ((spread g).orElse fun _ => g (.expressions .bracketed)), mark "\x7d"])

/-- An attribute value in quotation marks: it has no escapes and may hold line breaks. -/
def attributeText : Parser Fragment :=
  lexeme (.form .string) fun
    | c :: cs =>
      if c == '"' || c == '\'' then
        let n := (cs.takeWhile (· != c)).length
        if n < cs.length then some (n + 2) else none
      else none
    | [] => none

def attribute' : Parser Fragment :=
  Parser.firstOf [
    phrase .jsxAttribute (Parser.sequence [
      markupName, Parser.optional (Parser.sequence [mark ":", markupName]),
      Parser.optional (Parser.sequence [mark "=", Parser.firstOf [attributeText, embedded g, g .element]])]),
    embedded g]

/-- Text up to the next tag or brace. -/
def elementText : Parser Fragment := do
  let start ← Parser.here
  let n := (start.rest.takeWhile fun c => !(c == '<' || c == '>' || c == '{' || c == '}')).length
  if n == 0 then Parser.refuse start.index
  else
    let stop := start.advance n
    Parser.moveTo stop
    return if (start.rest.take n).all isBlank then [] else [start.nodeTo stop (.form .jsxText) []]

def elementContent : Parser Fragment := Parser.firstOf [elementText, embedded g, do
  Parser.guard (!(← Parser.ahead (Parser.sequence [mark "<", mark "/"])))
  g .element]

/-- An element with its closing tag, or an element closed at once. -/
def element : Parser Fragment := do
  let extras ← trivia
  let start ← Parser.here
  let «open» ← mark "<"
  let head ← Parser.optional (do
    let name ← elementName
    let types ← Parser.optional (typeArguments g)
    let attributes ← Parser.many (attribute' g)
    return name ++ types ++ attributes)
  (do
    let close ← mark "/>"
    return extras ++ [← extend start .jsxSelfClosingElement («open» ++ head ++ close)]).orElse fun _ => do
  let close ← mark ">"
  let opening ← extend start .jsxOpeningElement («open» ++ head ++ close)
  let contents ← Parser.many (elementContent g)
  let closing ← phrase .jsxClosingElement (Parser.sequence [
    mark "<", mark "/", Parser.optional elementName, mark ">"])
  return extras ++ [← extend start .jsxElement ([opening] ++ contents ++ closing)]

end ModuleMock.Script.Grammar
