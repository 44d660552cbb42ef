import ModuleMock.Text.Blank
import ModuleMock.Syntax.Node

/-!
# Signatures of functions

What a mock keeps of a function: the names of its parameters as written, and a placeholder for what it returns,
chosen by the written result type alone.
-/

namespace ModuleMock

open Syntax

/-- The placeholder where nothing is known. -/
def unknownValue : String := "undefined as any"

def promiseValue : String := "Promise.resolve()"

/-- The placeholder of a type that is written but has no value of its own. -/
def opaqueObject : String := "\x7b\x7d"

/-- The placeholder of a built-in type. -/
def predefinedValue : String → String
  | "string" => "''"
  | "number" => "0"
  | "boolean" => "false"
  | "void" => "undefined"
  | "undefined" => "undefined"
  | "null" => "null"
  | _ => opaqueObject

/-- The placeholder of a written type. -/
def typeValue (type : Node) : String :=
  match type.kind with
  | .form .predefinedType => predefinedValue type.text
  | .form .literalType =>
    match type.codeChildren.head? with
    | some c => if c.isForm .undefinedWord then "undefined" else if c.isForm .nullWord then "null" else opaqueObject
    | none => opaqueObject
  | .form .typeIdentifier =>
    if type.text = "Promise" then promiseValue
    else if type.text = "undefined" ∨ type.text = "null" then type.text
    else opaqueObject
  | .form .genericType =>
    match type.child? .name with
    | some name => if name.text = "Promise" then promiseValue else opaqueObject
    | none => opaqueObject
  | _ => opaqueObject

/-- The placeholder for the result of a function: a promise if it is asynchronous, else by its result type. -/
def resultValue (function : Node) : String :=
  if function.hasKeyword "async" then promiseValue
  else
    match function.child? .returnType with
    | none => unknownValue
    | some ascription =>
      if ascription.isForm .typeAscription then
        match ascription.codeChildren.head? with
        | some type => typeValue type
        | none => unknownValue
      else opaqueObject

/-- The name of one parameter as written; a pattern stands for itself, a rest pattern without its dots. -/
def parameterName? (parameter : Node) : Option String :=
  let shown (pattern : Node) : String :=
    if pattern.isForm .restPattern then
      Text.trim (String.ofList (pattern.text.toList.dropWhile (· == '.')))
    else pattern.text
  if parameter.isForm .requiredParameter || parameter.isForm .optionalParameter then
    (parameter.child? .pattern).map shown
  else if parameter.isForm .assignmentPattern then
    some (shown ((parameter.child? .left).getD parameter))
  else some (shown parameter)

def parameterNames (function : Node) : List String :=
  match function.child? .parameter with
  | some single => [single.text]
  | none =>
    match function.child? .parameters with
    | some list => list.codeChildren.filterMap parameterName?
    | none => []

end ModuleMock
