import ModuleMock.Json.Reader
import ModuleMock.Json.Writer
import ModuleMock.Text.Blank
import ModuleMock.Validation

/-!
# Requests and responses

- `Request.payload`: the JSON value in the body of a request;
- `Response.json`: a response with a JSON body; values that have no text in UTF-8 make an internal error;
- `Response.invalid`: what is wrong with a request. Half of a surrogate pair in a text that is needed is no fault of the
  request, but makes an internal error.
-/

namespace ModuleMock.Service

open Json (Value)
open Text (Str)
open Validation

structure Body where
  contentType : String
  text : String

structure Request where
  method : String
  target : String
  body : Option Body

structure Response where
  status : Nat
  body : String

/-! ## Bodies of requests -/

/-- Is the media type JSON, or a format built on it? Parameters of the type do not count. -/
def isJsonType (contentType : String) : Bool :=
  let essence := (Text.trimList (contentType.toList.takeWhile (· ≠ ';'))).map Char.toLower
  let kind := essence.takeWhile (· ≠ '/')
  let subtype := essence.drop (kind.length + 1)
  kind = "application".toList && !subtype.contains '/' &&
    (subtype = "json".toList || "+json".toList.isSuffixOf subtype)

/-- A text without a byte order mark at its start. -/
def withoutMark (text : String) : String :=
  match text.toList with
  | '\uFEFF' :: cs => String.ofList cs
  | _ => text

/-- The value in the body of a request; text of another type stands for itself. -/
def Request.payload (r : Request) : Checked Value :=
  match r.body with
  | none => .error [⟨[], .missing, .null⟩]
  | some ⟨_, ""⟩ => .error [⟨[], .missing, .null⟩]
  | some b =>
    if !isJsonType b.contentType then .ok (.string b.text)
    else
      match Json.read (withoutMark b.text) with
      | .ok v => .ok v
      | .error f => .error [⟨[.index f.index], .notJson f.cause.message, .object []⟩]

/-! ## Bodies of responses -/

mutual

/-- Has a value a text in UTF-8? Numbers that are not finite have none, nor have halves of surrogate pairs. -/
def isWritable : Value → Bool
  | .float x => x.isFinite
  | .string s => s.isWhole
  | .array items => areWritable items
  | .object members => membersWritable members
  | _ => true

def areWritable : List Value → Bool
  | [] => true
  | v :: vs => isWritable v && areWritable vs

def membersWritable : List (Str × Value) → Bool
  | [] => true
  | (k, v) :: ms => k.isWhole && isWritable v && membersWritable ms

end

def Response.internalError : Response := ⟨500, "Internal Server Error"⟩

def Response.json (status : Nat) (v : Value) : Response :=
  if isWritable v then ⟨status, Json.compact false v⟩ else .internalError

/-- A response with a remark instead of a result. -/
def Response.remark (status : Nat) (text : Str) : Response := .json status (.object [("detail", .string text)])

def stepValue : Step → Value
  | .key name => .string name
  | .index n => .integer n

def detailValue (d : Detail) : Value :=
  let shared : List (Str × Value) := [
    ("type", .string d.cause.code), ("loc", .array (d.place.map stepValue)), ("msg", .string d.cause.message),
    ("input", d.input)]
  match d.cause with
  | .notJson error => .object (shared ++ [(.whole "ctx", .object [("error", .string error)])])
  | _ => .object shared

/-- A response that lists what is wrong with a request. -/
def Response.invalid (ds : List Detail) : Response :=
  let wrong := ds.filter fun d => !d.isHalved
  if wrong.isEmpty then .internalError else .json 422 (.object [("detail", .array (wrong.map detailValue))])

end ModuleMock.Service
