import ModuleMock.Manifest
import ModuleMock.Scaffold
import ModuleMock.Service.Message
import ModuleMock.Service.Target
import ModuleMock.Surface.Json

/-!
# Routes of the service

`respond` takes a request and a file tree to a response and the tree after it.
-/

namespace ModuleMock.Service

open Json (Value)
open Text (Str)
open Validation

inductive Route where
  | status
  | exports
  | purify
  | mocks
  | scaffold
deriving DecidableEq

def Route.path : Route → String
  | .status => "/api-status"
  | .exports => "/api/analysis/exports"
  | .purify => "/api/analysis/purify"
  | .mocks => "/api/analysis/mocks"
  | .scaffold => "/api/mocks/scaffold"

/-- The one method of a route. -/
def Route.method : Route → String
  | .status => "GET"
  | _ => "POST"

def Route.all : List Route := [.status, .exports, .purify, .mocks, .scaffold]

/-- The route at a path; slashes at the end of the path do not count. -/
def Route.ofPath? (path : String) : Option Route :=
  let bare := String.ofList (path.toList.reverse.dropWhile (· = '/')).reverse
  Route.all.find? fun r => r.path = bare

/-! ## Fields of requests -/

def sourceField : Field := ⟨"source", none⟩
def pathField : Field := ⟨"file_path", some "filePath"⟩
def mountField : Field := ⟨"mount_name", some "mountName"⟩
def idField : Field := ⟨"preload_id", some "preloadId"⟩
def codeField : Field := ⟨"code", none⟩

def defaultPath : String := "preload.ts"
def defaultId : String := "preload"

/-- A module to analyse, sent as text. -/
structure Submission where
  source : String
  path : String

/-- Names for the mocks of a module. -/
structure Naming where
  mount : String
  id : String

def Submission.ofMembers (members : List (Str × Value)) : Checked Submission :=
  (Checked.zip (required sourceField members string) (optional pathField members defaultPath string)).map
    fun p => ⟨p.1, p.2⟩

def Naming.ofMembers (members : List (Str × Value)) : Checked Naming :=
  (Checked.zip (optional mountField members defaultMount string) (optional idField members defaultId string)).map
    fun p => ⟨p.1, p.2⟩

/-- What a check of the fields in the body of a request gives. -/
def Request.fields {α : Type} (r : Request) (check : List (Str × Value) → Checked α) : Checked α :=
  Checked.under (.key "body") (r.payload.bind fun
    | .object members => check members
    | v => wrong .notFields v)

/-! ## Responses -/

def Purified.toJson (p : Bundle.Purified) : Value :=
  .object [("code", .string p.code), ("hasDefaultExport", .bool p.hasDefault)]

def Mocks.toJson (m : Mocks) : Value :=
  .object [("autoMock", .string m.autoMock), ("userMock", .string m.userMock), ("declaration", .string m.declaration)]

def Report.toJson (r : Report) : Value :=
  .object [
    ("preloadPath", .string r.preloadPath), ("written", strings r.written), ("skipped", strings r.skipped),
    ("errors", strings r.errors)]

/-- The response to fields that pass a check. -/
def answered {α : Type} (checked : Checked α) (answer : α → Value) : Response :=
  match checked with
  | .ok a => .json 200 (answer a)
  | .error ds => .invalid ds

def statusValue : Value :=
  .object [("message", .string "Preload Mock Server is running. Visit /docs for API documentation.")]

variable (w : Workspace)

def Submission.surface (s : Submission) : Surface := Modules.surface w [] s.path s.source

/-- The response to a job that failed: only faults of paths have a remark. -/
def failureResponse : FileFault → Response
  | .path fault place =>
    .remark 500 ("Failed to write mock files: " ++ (FileFault.path fault place).message)
  | .decoding _ => .internalError

/-- The response to a request that needs a manifest which cannot be used. -/
def refusal (fault : Manifest.Fault) : Response :=
  match fault.kind with
  | .absence => .remark 404 fault.message
  | .misconfiguration => .remark 400 fault.message
  | .unforeseen => .internalError

def scaffoldAt (config mount : String) : FileTree × Response :=
  match Manifest.load w config with
  | .error fault => (w.tree, refusal fault)
  | .ok m =>
    let (result, desk) := (scaffold w.cwd m.preload mount).run.run ⟨w.tree, []⟩
    match result with
    | .ok r => (desk.tree, .json 200 (Report.toJson r))
    | .error fault => (desk.tree, failureResponse fault)

def scaffoldResponse (t : Target) : FileTree × Response :=
  match t.parameter? "config" with
  | none => (w.tree, .invalid [⟨[.key "query", .key "config"], .missing, .null⟩])
  | some config => scaffoldAt w config ((t.parameter? "mountName").getD defaultMount)

def Route.respond (route : Route) (r : Request) (t : Target) : FileTree × Response :=
  match route with
  | .status => (w.tree, .json 200 statusValue)
  | .exports => (w.tree, answered (r.fields Submission.ofMembers) fun s => (s.surface w).toJson)
  | .purify =>
    (w.tree, answered (r.fields fun members => required codeField members string) fun code =>
      Purified.toJson (Bundle.purify code))
  | .mocks =>
    (w.tree, answered (r.fields fun members => Checked.zip (Submission.ofMembers members) (Naming.ofMembers members))
      fun (s, n) => Mocks.toJson (Mocks.ofSurface (s.surface w) n.mount n.id))
  | .scaffold => scaffoldResponse w t

/-- The response to a request for a body. -/
def respondFully (method : String) (r : Request) : FileTree × Response :=
  let t := Target.ofString r.target
  match Route.ofPath? t.path with
  | none => (w.tree, .remark 404 "Not Found")
  | some route =>
    if route.method = method then route.respond w r t else (w.tree, .remark 405 "Method Not Allowed")

/-- The response to a request; the method `HEAD` asks for no body. -/
def respond (r : Request) : FileTree × Response :=
  let method := r.method.toUpper
  let (tree, response) := respondFully w method r
  (tree, if method = "HEAD" then { response with body := "" } else response)

end ModuleMock.Service
