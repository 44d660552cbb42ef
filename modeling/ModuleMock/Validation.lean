import ModuleMock.Json.Value
import ModuleMock.Text.Quoted
import ModuleMock.Json.Writer

/-!
# Validation of JSON values

A check turns a value into what it describes, or lists everything that is wrong with it. Each detail has a place, a
cause and the value found there.

- `Checked`: results of checks, where `zip` keeps the details of both sides;
- `Field`: look-up of a field under its alias or its plain name.
-/

namespace ModuleMock.Validation

open Json (Value)
open Text (Str)

inductive Step where
  | key (name : String)
  | index (n : Nat)

/-- What is wrong with a value. -/
inductive Cause where
  | missing
  | notString
  /-- Text with half of a surrogate pair, of which nothing can be made. -/
  | halved
  | notList
  | notDictionary
  /-- Not a dictionary where the named model is expected. -/
  | notModel (model : String)
  /-- Not a dictionary where fields are to be taken from. -/
  | notFields
  | noTag (field : String)
  | unknownTag (tag field : String) (expected : List String)
  /-- Text that is not JSON. -/
  | notJson (error : String)

/-- The name of a cause. -/
def Cause.code : Cause → String
  | .missing => "missing"
  | .notString => "string_type"
  | .halved => "string_unicode"
  | .notList => "list_type"
  | .notDictionary => "dict_type"
  | .notModel _ => "model_type"
  | .notFields => "model_attributes_type"
  | .noTag _ => "union_tag_not_found"
  | .unknownTag _ _ _ => "union_tag_invalid"
  | .notJson _ => "json_invalid"

def Cause.message : Cause → String
  | .missing => "Field required"
  | .notString => "Input should be a valid string"
  | .halved => "Input should be a valid string, unable to parse raw data as a unicode string"
  | .notList => "Input should be a valid list"
  | .notDictionary => "Input should be a valid dictionary"
  | .notModel model => s!"Input should be a valid dictionary or instance of {model}"
  | .notFields => "Input should be a valid dictionary or object to extract fields from"
  | .noTag field => s!"Unable to extract tag using discriminator '{field}'"
  | .unknownTag tag field expected =>
    let tags := ", ".intercalate (expected.map fun t => s!"'{t}'")
    s!"Input tag '{tag}' found using '{field}' does not match any of the expected tags: {tags}"
  | .notJson _ => "JSON decode error"

structure Detail where
  place : List Step
  cause : Cause
  input : Value

def Detail.isHalved (d : Detail) : Bool :=
  match d.cause with
  | .halved => true
  | _ => false

abbrev Checked (α : Type) := Except (List Detail) α

namespace Checked

variable {α β : Type}

/-- Both results, or the details of both sides. -/
def zip (a : Checked α) (b : Checked β) : Checked (α × β) :=
  match a, b with
  | .ok x, .ok y => .ok (x, y)
  | .error d, .ok _ => .error d
  | .ok _, .error d => .error d
  | .error d, .error d' => .error (d ++ d')

/-- The same details one step further down. -/
def under (s : Step) (a : Checked α) : Checked α :=
  a.mapError fun ds => ds.map fun d => { d with place := s :: d.place }

end Checked

/-- A single detail at the place of the check. -/
def wrong {α : Type} (c : Cause) (input : Value) : Checked α := .error [⟨[], c, input⟩]

/-! ## Plain values -/

/-- Any text. -/
def text : Value → Checked Str
  | .string s => .ok s
  | v => wrong .notString v

/-- A text without halves of surrogate pairs. -/
def wholeText : Str → Checked String
  | .whole s => .ok s
  | .halved t => wrong .halved (.string (.halved t))

def string (v : Value) : Checked String := (text v).bind wholeText

/-- Items of a list of strings from the given index on. -/
def stringItems : Nat → List Value → Checked (List String)
  | _, [] => .ok []
  | n, v :: vs => ((string v).under (.index n)).zip (stringItems (n + 1) vs) |>.map fun p => p.1 :: p.2

def stringList : Value → Checked (List String)
  | .array items => stringItems 0 items
  | v => wrong .notList v

/-! ## Fields -/

/-- A field of a model, with an alias that is looked for first. -/
structure Field where
  name : String
  alias? : Option String := none

/-- The key under which a missing field is reported. -/
def Field.shownKey (f : Field) : String := f.alias?.getD f.name

/-- The key and value of a field. -/
def Field.find? (f : Field) (members : List (Str × Value)) : Option (String × Value) :=
  let byAlias := f.alias?.bind fun a => (members.lookup (.whole a)).map fun v => (a, v)
  byAlias <|> (members.lookup (.whole f.name)).map fun v => (f.name, v)

/-- A field that has to be there. -/
def required {α : Type} (f : Field) (members : List (Str × Value)) (check : Value → Checked α) : Checked α :=
  match f.find? members with
  | some (k, v) => (check v).under (.key k)
  | none => .error [⟨[.key f.shownKey], .missing, .object members⟩]

/-- A field with a default. -/
def optional {α : Type} (f : Field) (members : List (Str × Value)) (fallback : α) (check : Value → Checked α) :
    Checked α :=
  match f.find? members with
  | some (k, v) => (check v).under (.key k)
  | none => .ok fallback

/-- Nothing, written as null, or what the check gives. -/
def nullable {α : Type} (check : Value → Checked α) : Value → Checked (Option α)
  | .null => .ok none
  | v => (check v).map some

/-! ## Values in messages -/

mutual

/-- A value inside another one in a message. -/
def display : Value → String
  | .null => "None"
  | .bool true => "True"
  | .bool false => "False"
  | .integer i => toString i
  | .float x => Decimal.renderFloat Json.floatStyle x
  | .string s => s.shown
  | .array items => "[" ++ ", ".intercalate (displayItems items) ++ "]"
  | .object members => "\x7b" ++ ", ".intercalate (displayMembers members) ++ "\x7d"

def displayItems : List Value → List String
  | [] => []
  | v :: vs => display v :: displayItems vs

def displayMembers : List (Str × Value) → List String
  | [] => []
  | (k, v) :: ms => (k.shown ++ ": " ++ display v) :: displayMembers ms

end

/-- A value as a tag in a message; a text stands for itself. -/
def displayTag : Value → String
  | .string s => s.printed
  | v => display v

end ModuleMock.Validation
