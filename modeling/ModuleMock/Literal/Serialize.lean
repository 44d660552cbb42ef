import ModuleMock.Declaration
import ModuleMock.Literal.Quote

/-!
# Literals as text

A literal expression is written in one canonical form; anything else has none. Identifiers stand for the initial
value of the variable they name. A name that is being followed is not followed again.

- `serializeWith`: the form of an expression, given the forms of names;
- `serializeWithin`: following names at most as often as the budget says;
- `serialize`: with a budget that never runs out, since the names being followed are distinct keys of the table.
-/

namespace ModuleMock.Literal

open Syntax

/-- What stands for an element that has no literal form. -/
def absent : String := "undefined"

/-- The form of a string literal; its first character is its quotation mark. -/
def stringForm (n : Node) : String := requote (n.text.toList.headD '\'') n.stringValue

mutual

/-- The form of an expression, given the forms of the names in it. -/
def serializeWith (follow : String → Option String) : Node → Option String
  | .mk k l e m cs =>
    let n : Node := .mk k l e m cs
    match k with
    | .form .string => some (stringForm n)
    | .form .templateString =>
      if cs.any (·.isForm .templateSubstitution) then none else some (requote '`' n.stringValue)
    | .form .number => some n.text
    | .form .trueWord => some "true"
    | .form .falseWord => some "false"
    | .form .array => some ("[" ++ ", ".intercalate (arrayItems follow true cs) ++ "]")
    | .form .object => some ("\x7b" ++ ", ".intercalate (objectEntries follow cs) ++ "\x7d")
    | .form .identifier => follow n.text
    | .form .parenthesizedExpression => serializeFirst follow cs
    | .form .asExpression => serializeFirst follow cs
    | .form .satisfiesExpression => serializeFirst follow cs
    | .form .nonNullExpression => serializeFirst follow cs
    | _ => none

/-- The form of the first child that is neither a token nor a comment. -/
def serializeFirst (follow : String → Option String) : List Node → Option String
  | [] => none
  | c :: cs => if c.isNamed && !c.isForm .comment then serializeWith follow c else serializeFirst follow cs

/-- The elements of an array. A comma without an element since the comma before it marks a hole. -/
def arrayItems (follow : String → Option String) (hole : Bool) : List Node → List String
  | [] => []
  | c :: cs =>
    if c.kind = .token "[" ∨ c.kind = .token "]" ∨ c.kind = .form .comment then arrayItems follow hole cs
    else if c.kind = .token "," then
      if hole then absent :: arrayItems follow true cs else arrayItems follow true cs
    else (serializeWith follow c).getD absent :: arrayItems follow false cs

/-- The members of an object that have a literal form: pairs with a fixed key, and shorthand names. -/
def objectEntries (follow : String → Option String) : List Node → List String
  | [] => []
  | .mk k l e m cs :: rest =>
    let n : Node := .mk k l e m cs
    match k with
    | .form .pair =>
      match n.child? .key, memberForm follow cs with
      | some key, some value =>
        if key.isForm .computedPropertyName then objectEntries follow rest
        else (key.text ++ ": " ++ value) :: objectEntries follow rest
      | _, _ => objectEntries follow rest
    | .form .shorthandPropertyIdentifier =>
      (n.text ++ ": " ++ (follow n.text).getD absent) :: objectEntries follow rest
    | _ => objectEntries follow rest

/-- The form of the value among the children of a pair, if there is one. -/
def memberForm (follow : String → Option String) : List Node → Option String
  | [] => none
  | c :: cs => if c.label = some .value then some ((serializeWith follow c).getD absent) else memberForm follow cs

end

/-- The form of an expression where at most `budget` names are followed in a row and the listed ones are not. -/
def serializeWithin (table : DeclarationTable) : Nat → List String → Node → Option String
  | 0, _, n => serializeWith (fun _ => none) n
  | budget + 1, resolving, n =>
    serializeWith (fun name =>
      if name ∈ resolving then none
      else
        match table.lookup name with
        | some (.variable _ (some value)) => serializeWithin table budget (name :: resolving) value
        | _ => none) n

/-- The canonical form of a literal expression. -/
def serialize (table : DeclarationTable) (n : Node) : Option String :=
  serializeWithin table table.length [] n

end ModuleMock.Literal
