import ModuleMock.Bundle.Edit
import ModuleMock.Script.Repair
import ModuleMock.Text.Blank

/-!
# Purified bundles

A compiled bundle assigns what it exports to an object. `purify` turns top-level assignments to `exports` into
declarations, mounts the default export on the window, and removes the plumbing around them. All else stays as it is.
-/

namespace ModuleMock.Bundle

open Syntax

/-- What is to be done with a statement. -/
inductive Verdict where
  | keep
  | remove
  /-- The default export, mounted on the window. -/
  | mount (value : String)
  | declare (name value : String)
deriving DecidableEq

/-- The object and the property of a member access, as written. -/
def memberParts? (n : Node) : Option (String × String) :=
  match n.child? .object, n.child? .property with
  | some object, some property => some (object.text, property.text)
  | _, _ => none

/-- Does the call define properties of the exports? -/
def definesExports (call : Node) : Bool :=
  match call.child? .callee, call.child? .arguments with
  | some callee, some args =>
    callee.isForm .memberExpression
      && (memberParts? callee = some ("Object", "defineProperty")
        || memberParts? callee = some ("Object", "defineProperties"))
      && args.codeChildren.head?.map (·.text) = some "exports"
  | _, _ => false

/-- Is the value undefined? -/
def isVoid (n : Node) : Bool :=
  (n.isForm .unaryExpression && n.hasKeyword "void") || n.text = "undefined"

/-- The member that an assignment assigns to. -/
def assignedMember? (n : Node) : Option (String × String) :=
  match n.child? .left with
  | some left => if left.isForm .memberExpression then memberParts? left else none
  | none => none

/-- Does the value assign to a member of the exports? -/
def assignsExport (n : Node) : Bool :=
  n.isForm .assignmentExpression && ((assignedMember? n).map (·.1) = some "exports")

/-- What is to be done with an assignment. -/
def assignmentVerdict (n : Node) : Verdict :=
  match assignedMember? n, n.child? .right with
  | some (object, name), some value =>
    if object = "module" ∧ name = "exports" then .remove
    else if object ≠ "exports" then .keep
    else if name = "default" then .mount value.text
    else if isVoid value || assignsExport value || Text.trim value.text = name then .remove
    else .declare name value.text
  | _, _ => .keep

/-- What is to be done with a top-level node. Only expression statements change. -/
def verdict (n : Node) : Verdict :=
  if n.isForm .expressionStatement then
    match n.codeChildren.head? with
    | some expr =>
      if expr.isForm .callExpression && definesExports expr then .remove
      else if expr.isForm .assignmentExpression then assignmentVerdict expr
      else .keep
    | none => .keep
  else .keep

/-- The edit that a verdict on a node asks for. -/
def edit? (source : List Char) (n : Node) : Option Edit :=
  match verdict n with
  | .keep => none
  | .remove => some (removal source n.extent.start n.extent.stop)
  | .mount value => some ⟨n.extent.start, n.extent.stop, s!"Object.assign(window, {value});".toList⟩
  | .declare name value => some ⟨n.extent.start, n.extent.stop, s!"const {name} = {value};".toList⟩

structure Purified where
  code : String
  hasDefault : Bool
  /-- How many statements were replaced or removed. -/
  changes : Nat

/-- The bundle with the given top-level nodes, purified. -/
def purifyNodes (code : String) (nodes : List Node) : Purified :=
  let source := code.toList
  let edits := nodes.filterMap (edit? source)
  { code := String.ofList (applyEdits source edits)
    hasDefault := nodes.any fun n => match verdict n with
      | .mount _ => true
      | _ => false
    changes := edits.length }

def purify (code : String) : Purified := purifyNodes code (Script.parse .plain code).namedChildren

end ModuleMock.Bundle
