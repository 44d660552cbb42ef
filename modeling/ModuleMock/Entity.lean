import ModuleMock.OrderedMap
import ModuleMock.Signature

/-!
# Export surfaces

An entity is what a mock knows of an exported value; the surface of a module lists what it exports.
-/

namespace ModuleMock

inductive Entity where
  | function (params : List String) (result : String)
  /-- A value as source text. -/
  | constant (value : String)
  | object (props : List (String × Entity))

/-- The entity of a value about which nothing is known. -/
def Entity.unknown : Entity := .constant unknownValue

/-- The entity of a function. -/
def Entity.ofFunction (node : Syntax.Node) : Entity := .function (parameterNames node) (resultValue node)

/-- The exports of a module: named ones, the members of the default export if there is one, and diagnostics. -/
structure Surface where
  named : OrderedMap Entity := []
  default? : Option (OrderedMap Entity) := none
  errors : List String := []

namespace Surface

/-- The whole module as one object; a default export is its member `default`. -/
def namespaceProps (s : Surface) : OrderedMap Entity :=
  match s.default? with
  | some props => OrderedMap.put s.named "default" (.object props)
  | none => s.named

/-- What a module exports under a name; `*` means the whole module. -/
def entity (s : Surface) (name : String) : Entity :=
  if name = "*" then .object s.namespaceProps
  else
    match s.named.lookup name with
    | some e => e
    | none =>
      match s.default? with
      | some props => if name = "default" then .object props else .unknown
      | none => .unknown

end Surface

/-- What a name stands for in a module that may not be available. -/
def entityFrom (target : Option Surface) (name : String) : Entity :=
  match target with
  | some s => s.entity name
  | none => .unknown

end ModuleMock
