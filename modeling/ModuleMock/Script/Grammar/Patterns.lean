import ModuleMock.Script.Grammar.Types

/-!
# Binding and assignment patterns
-/

namespace ModuleMock.Script.Grammar

open ModuleMock.Syntax

variable (g : Grammar)

/-- A pattern, possibly with a value to use when nothing matches. -/
def patternItem : Parser Fragment := do
  let extras ← trivia
  let start ← Parser.here
  let target ← g .pattern
  (do
    let rest ← Parser.sequence [mark "=", labelled .right (g (.expression .bracketed))]
    return extras ++ [← extend start .assignmentPattern (labelLast .left target ++ rest)]).orElse fun _ =>
  Parser.pure (extras ++ target)

def restPattern : Parser Fragment :=
  phrase .restPattern (Parser.sequence [mark "...", g .pattern])

def objectPatternItem : Parser Fragment :=
  Parser.firstOf [
    restPattern g,
    phrase .pairPattern (Parser.sequence [
      labelled .key (propertyName g), mark ":", labelled .value (patternItem g)]),
    phrase .objectAssignmentPattern (Parser.sequence [
      labelled .left (word .shorthandPropertyIdentifierPattern), mark "=",
      labelled .right (g (.expression .bracketed))]),
    word .shorthandPropertyIdentifierPattern]

def objectPattern : Parser Fragment :=
  phrase .objectPattern (Parser.sequence [mark "\x7b", holeyList (objectPatternItem g), mark "\x7d"])

def arrayPattern : Parser Fragment :=
  phrase .arrayPattern (Parser.sequence [mark "[", holeyList (patternItem g), mark "]"])

/-- A pattern that takes a value apart. -/
def destructuring : Parser Fragment := (objectPattern g).orElse fun _ => arrayPattern g

/-- Dotted and indexed access to a place that can be assigned to. -/
def placeTail (start : Cursor) : Nat → Node → Parser Node
  | 0, n => Parser.pure n
  | fuel + 1, n =>
    (do
      let access ← Parser.sequence [
        markNot "." [".."], labelled .property (privateName.orElse fun _ => word .propertyIdentifier)]
      let next ← extend start .memberExpression ([n.withLabel .object] ++ access)
      placeTail start fuel next).orElse fun _ =>
    (do
      let access ← Parser.sequence [mark "[", g (.expressions .bracketed), mark "]"]
      let next ← extend start .subscriptExpression ([n.withLabel .object] ++ access)
      placeTail start fuel next).orElse fun _ =>
    Parser.pure n

/-- A name, or an access that starts at a name. -/
def place : Parser Fragment := do
  let s ← Parser.setting
  let extras ← trivia
  let start ← Parser.here
  let first ← (wordWhere (.form .thisWord) (· == "this")).orElse fun _ => anyIdentifier
  match first.reverse with
  | [] => Parser.fail
  | n :: _ =>
    let whole ← placeTail g start s.size n
    Parser.guard (!whole.isForm .thisWord)
    return extras ++ [whole]

def pattern : Parser Fragment := Parser.firstOf [restPattern g, destructuring g, place g]

/-- The name or pattern that a declaration binds. -/
def binding : Parser Fragment := anyIdentifier.orElse fun _ => destructuring g

end ModuleMock.Script.Grammar
