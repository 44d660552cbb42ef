import ModuleMock.Script.Grammar.Expressions

/-!
# Bodies of classes
-/

namespace ModuleMock.Script.Grammar

open ModuleMock.Syntax

variable (g : Grammar)

def memberWords : List String :=
  ["static", "readonly", "async", "get", "set", "declare", "abstract", "accessor"]

/-- A method with a body, or its signature alone. -/
def classMethod : Parser Fragment := do
  let extras ← trivia
  let start ← Parser.here
  let head ← Parser.sequence [
    memberModifiers .typed memberWords, Parser.optional (mark "*"), labelled .name (propertyName g),
    Parser.optional (mark "?"), signature g .typed]
  if ← nextIsMark "\x7b" then
    let body ← g .block
    return extras ++ [← extend start .methodDefinition (head ++ body)]
  else
    let form := if head.any fun n => n.kind == .token "abstract" then Form.abstractMethodSignature else .methodSignature
    let whole ← extend start form head
    let stop ← (mark ",").orElse fun _ => signatureEnd
    return extras ++ [whole] ++ stop

/-- A field with an optional type and value. -/
def field : Parser Fragment := do
  let whole ← phrase .publicFieldDefinition (Parser.sequence [
    memberModifiers .typed memberWords, labelled .name (propertyName g),
    Parser.optional (Parser.firstOf [mark "?", markNot "!" ["!="]]), annotated g .typed,
    Parser.optional (Parser.sequence [assignMark, labelled .value (g (.expression .statement))])])
  let valued := (whole.getLast?.bind (·.child? .value)).isSome
  let stop ← (mark ",").orElse fun _ => semicolon (if valued then .statement else .typed)
  return whole ++ stop

/-- Does a method follow? -/
def classMethodAhead : Parser Bool :=
  Parser.ahead (Parser.sequence [
    memberModifiers .typed memberWords, Parser.optional (mark "*"), propertyName g, Parser.optional (mark "?"),
    (mark "(").orElse fun _ => mark "<"])

def classMember : Parser Fragment := do
  let before ← decorators g
  let member ← Parser.firstOf [
    mark ";",
    phrase .classStaticBlock (Parser.sequence [keyword "static", g .block]),
    (do
      let whole ← indexSignature g
      return whole ++ (← (mark ",").orElse fun _ => semicolon .typed)),
    (do
      if ← classMethodAhead g then classMethod g else field g)]
  return before ++ member

def classBody : Parser Fragment :=
  phrase .classBody (Parser.sequence [mark "\x7b", Parser.many (classMember g), mark "\x7d"])

end ModuleMock.Script.Grammar
