import ModuleMock.Entity
import ModuleMock.Literal.Serialize

/-!
# Entities of expressions

- `resolve`: what a name of a module stands for, following aliases and imports;
- `classify`: what an exported value stands for, member by member for object literals.
-/

namespace ModuleMock

open Syntax

/-- What the expressions of a module are read against: its declarations, and the surfaces of the modules it names. -/
structure Scope where
  table : DeclarationTable
  link : String → Option Surface

namespace Scope

variable (scope : Scope)

/-! ## Names -/

/-- What a name stands for, where at most `budget` aliases are followed and the listed ones are not. -/
def resolveWithin : Nat → List String → String → Entity
  | 0, _, _ => .unknown
  | budget + 1, resolving, name =>
    if name ∈ resolving then .unknown
    else
      match scope.table.lookup name with
      | none => .unknown
      | some (.variable _ none) => .unknown
      | some (.variable _ (some value)) =>
        let expr := value.unwrap
        if isFunctionExpression expr then .ofFunction expr
        else
          match Literal.serialize scope.table expr with
          | some text => .constant text
          | none =>
            if expr.isForm .identifier then resolveWithin budget (name :: resolving) expr.text else .unknown
      | some (.function node) => .ofFunction node
      | some (.imported source imported) => entityFrom (scope.link source) imported

/-- What a name of the module stands for. The names followed are distinct keys of the table, so the budget suffices. -/
def resolve (name : String) : Entity := scope.resolveWithin scope.table.length [] name

/-! ## Values -/

/-- The key that a member of an object literal defines; computed, numeric and private keys define none. -/
def propertyKey? (key : Option Node) : Option String :=
  match key with
  | none => none
  | some n =>
    if n.isForm .propertyIdentifier || n.isForm .identifier then some n.text
    else if n.isForm .string then some n.stringValue
    else none

/-- Adds what a method of an object literal defines: a getter is a value, and a setter alone an unknown one. -/
def putMethod (props : OrderedMap Entity) (method : Node) : OrderedMap Entity :=
  match propertyKey? (method.child? .name) with
  | none => props
  | some key =>
    if method.hasKeyword "get" then OrderedMap.put props key (.constant (resultValue method))
    else if method.hasKeyword "set" then OrderedMap.putIfAbsent props key .unknown
    else OrderedMap.put props key (.ofFunction method)

/-- A literal if the expression is one, and otherwise what the default says. -/
def literalOr (n : Node) (e : Entity) : Entity :=
  match Literal.serialize scope.table n with
  | some text => .constant text
  | none => e

mutual

/-- The entity of an exported value. -/
def classify : Node → Entity
  | .mk k l e m cs =>
    let n : Node := .mk k l e m cs
    match k with
    | .form .parenthesizedExpression => classifyFirst cs
    | .form .asExpression => classifyFirst cs
    | .form .satisfiesExpression => classifyFirst cs
    | .form .nonNullExpression => classifyFirst cs
    | .form .arrowFunction => .ofFunction n
    | .form .functionExpression => .ofFunction n
    | .form .generatorFunction => .ofFunction n
    | .form .object => .object (expand [] cs)
    | .form .identifier => scope.literalOr n (scope.resolve n.text)
    | _ => scope.literalOr n .unknown

/-- The entity of the first child that is neither a token nor a comment. -/
def classifyFirst : List Node → Entity
  | [] => .unknown
  | c :: cs => if c.isNamed && !c.isForm .comment then classify c else classifyFirst cs

/-- Adds the members of an object literal. -/
def expand (props : OrderedMap Entity) : List Node → OrderedMap Entity
  | [] => props
  | .mk k l e m cs :: rest =>
    let n : Node := .mk k l e m cs
    match k with
    | .form .methodDefinition => expand (putMethod props n) rest
    | .form .pair =>
      match propertyKey? (n.child? .key), memberEntity cs with
      | some key, some value => expand (OrderedMap.put props key value) rest
      | _, _ => expand props rest
    | .form .shorthandPropertyIdentifier => expand (OrderedMap.put props n.text (scope.resolve n.text)) rest
    | _ => expand props rest

/-- The entity of the value among the children of a pair, if there is one. -/
def memberEntity : List Node → Option Entity
  | [] => none
  | c :: cs => if c.label = some .value then some (classify c) else memberEntity cs

end

end Scope

end ModuleMock
