import ModuleMock.Entity
import ModuleMock.Validation

/-!
# Surfaces as JSON

`Surface.toJson` writes a surface under the public names of its fields; `Surface.ofJson` reads one, under the public
names or the plain ones. Names and values with halves of surrogate pairs make no surface.
-/

namespace ModuleMock

open Json (Value)
open Text (Str)
open Validation

def strings (ss : List String) : Value := .array (ss.map fun s : String => .string s)

/-! ## Writing -/

mutual

def Entity.toJson : Entity → Value
  | .function params result =>
    .object [("type", .string "Function"), ("params", strings params), ("mockReturnValue", .string result)]
  | .constant value => .object [("type", .string "Constant"), ("value", .string value)]
  | .object props => .object [("type", .string "Object"), ("props", .object (membersToJson props))]

def membersToJson : List (String × Entity) → List (Str × Value)
  | [] => []
  | (k, e) :: m => (k, e.toJson) :: membersToJson m

end

def Surface.toJson (s : Surface) : Value :=
  .object [
    ("namedExports", .object (membersToJson s.named)),
    ("defaultExport", match s.default? with
      | some props => .object (membersToJson props)
      | none => .null),
    ("errors", strings s.errors)]

/-! ## Reading -/

def entityTags : List String := ["Function", "Constant", "Object"]

def paramsField : Field := ⟨"params", none⟩
def resultField : Field := ⟨"mock_return_value", some "mockReturnValue"⟩
def valueField : Field := ⟨"value", none⟩

/-- What a check gives for the value under a key. -/
def keyed {α : Type} (checked : Checked α) : Str → Checked (String × α)
  | .whole k => (checked.under (.key k)).map fun a => (k, a)
  | .halved t => wrong .halved (.string (.halved t))

mutual

/-- An entity, told by its tag. -/
def Entity.ofJson : Value → Checked Entity
  | .object members =>
    match members.lookup (.whole "type") with
    | none => wrong (.noTag "type") (.object members)
    | some (.string (.whole "Function")) =>
      Checked.under (.key "Function") (Except.map (fun p => Entity.function p.1 p.2)
        (Checked.zip (optional paramsField members [] stringList) (required resultField members string)))
    | some (.string (.whole "Constant")) =>
      Checked.under (.key "Constant") (Except.map Entity.constant (required valueField members string))
    | some (.string (.whole "Object")) => Checked.under (.key "Object") (Except.map Entity.object (propsOfJson members))
    | some tag => wrong (.unknownTag (displayTag tag) "type" entityTags) (.object members)
  | v => wrong .notFields v

/-- The members of an object entity, among its fields. -/
def propsOfJson : List (Str × Value) → Checked (OrderedMap Entity)
  | [] => .ok []
  | (k, v) :: ms => if k = .whole "props" then (entitiesOfJson v).under (.key "props") else propsOfJson ms

def entitiesOfJson : Value → Checked (OrderedMap Entity)
  | .object members => membersOfJson members
  | v => wrong .notDictionary v

def membersOfJson : List (Str × Value) → Checked (OrderedMap Entity)
  | [] => .ok []
  | (k, v) :: ms => (keyed (Entity.ofJson v) k).zip (membersOfJson ms) |>.map fun p => p.1 :: p.2

end

def namedField : Field := ⟨"named_exports", some "namedExports"⟩
def defaultField : Field := ⟨"default_export", some "defaultExport"⟩
def errorsField : Field := ⟨"errors", none⟩

def Surface.ofJson : Value → Checked Surface
  | .object members =>
    (Checked.zip (optional namedField members [] entitiesOfJson)
      (Checked.zip (optional defaultField members none (nullable entitiesOfJson))
        (optional errorsField members [] stringList))).map fun p => ⟨p.1, p.2.1, p.2.2⟩
  | v => wrong (.notModel "AnalysisResult") v

end ModuleMock
