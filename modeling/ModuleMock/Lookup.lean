import ModuleMock.CommandLine.Run
import ModuleMock.Service.Routes

/-!
# What a run may look at

The places in a file system that a command or a request may consult, as far as they can be told from the part of the
file system that is known. What stands at these places makes further places known, until nothing new turns up.
-/

namespace ModuleMock.Lookup

open Syntax

/-! ## Modules -/

/-- The specifiers in the import and export statements of a module. -/
def specifiers (root : Node) : List String :=
  root.children.filterMap fun n =>
    if n.isForm .importStatement || n.isForm .exportStatement then ModuleView.sourceOf n else none

/-- The specifiers of imports that the table of a module knows. -/
def importedSpecifiers (root : Node) : List String :=
  (DeclarationTable.ofTree root).filterMap fun
    | (_, .imported source _) => some source
    | _ => none

/-- The places of the modules that a module names. -/
def moduleText (cwd : Location) (path text : String) : List Location :=
  let root := Script.parse (dialectOf path) text
  (specifiers root ++ importedSpecifiers root).flatMap fun s =>
    (candidates cwd path s).map fun c => Path.resolve cwd c

variable (w : Workspace)

/-- The places of the modules that the files of a tree name. -/
def modules : List Location :=
  w.tree.fileLocations.flatMap fun l =>
    let path := (Path.ofLocation l).toString
    match w.tree.readText w.cwd path with
    | .ok text => moduleText w.cwd path text
    | .error _ => []

/-! ## Manifests -/

/-- A module and the files generated for it. -/
def generated (path : String) : List Location :=
  let files := GeneratedFiles.beside (.ofString path)
  [Path.ofString path, files.autoMock, files.declaration, files.userMock].map (Path.resolve w.cwd)

/-- The files that the members of a manifest name. -/
def namedFiles (path : Path) (members : List (Text.Str × Json.Value)) : List Location :=
  [Manifest.preloadField, Manifest.logoField].flatMap fun f =>
    match f.find? members with
    | some (_, .string named) =>
      match Manifest.fileBeside? w path named with
      | .ok full => generated w full
      | .error (.absent (.whole full)) => generated w full
      | .error _ => []
    | _ => []

def manifest (config : String) : List Location :=
  let path := Manifest.place w config
  let named := match Manifest.readMembers w path.toString with
    | .ok members => namedFiles w path members
    | .error _ => []
  [Path.resolve w.cwd (.ofString config), Path.resolve w.cwd path] ++ named

/-! ## Commands and requests -/

def command (c : CommandLine.Command) : List Location :=
  match c with
  | .analyze file => Path.resolve w.cwd (.ofString file) :: modules w
  | .scaffold config _ => manifest w config ++ modules w
  | .bundle config compiled out _ =>
    [compiled, out].map (fun p => Path.resolve w.cwd (.ofString p)) ++ manifest w config ++ modules w
  | .serve _ _ => []

def request (r : Service.Request) : List Location :=
  let submitted := match r.fields Service.Submission.ofMembers with
    | .ok s => moduleText w.cwd s.path s.source
    | .error _ => []
  let named := match (Service.Target.ofString r.target).parameter? "config" with
    | some config => manifest w config
    | none => []
  submitted ++ named ++ modules w

end ModuleMock.Lookup
