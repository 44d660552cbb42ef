import ModuleMock.FileTree.Basic
import ModuleMock.Json.Reader
import ModuleMock.Log
import ModuleMock.Surface.Modules
import ModuleMock.Validation

/-!
# Plugin manifests

A manifest names the entry module of a plugin and some of its properties; keys it does not know are kept. Its texts may
hold halves of surrogate pairs, but the names of its files must have bytes.

- `Manifest.ofMembers`: validation of the members of a JSON object;
- `Manifest.load`: reading one from a file tree, with its paths made absolute.
-/

namespace ModuleMock

open Json (Value)
open Text (Str EncodingFault)
open Validation

/-- A manifest, with its files as it names them (`Manifest Str`) or by their paths (`Manifest String`). -/
structure Manifest (π : Type) where
  preload : π
  logo : Option π
  name : Option Str
  pluginName : Option Str
  main : Option Str
  version : Option Str
  /-- Keys without a meaning of their own. -/
  others : List (Str × Value)

namespace Manifest

/-- The manifest with other files. -/
def withFiles {π ρ : Type} (m : Manifest π) (preload : ρ) (logo : Option ρ) : Manifest ρ :=
  ⟨preload, logo, m.name, m.pluginName, m.main, m.version, m.others⟩

/-! ## Validation -/

def preloadField : Field := ⟨"preload", none⟩
def logoField : Field := ⟨"logo", none⟩
def nameField : Field := ⟨"name", none⟩
def pluginNameField : Field := ⟨"plugin_name", some "pluginName"⟩
def mainField : Field := ⟨"main", none⟩
def versionField : Field := ⟨"version", none⟩

def fields : List Field := [preloadField, logoField, nameField, pluginNameField, mainField, versionField]

/-- The members that no field takes. -/
def otherMembers (members : List (Str × Value)) : List (Str × Value) :=
  let taken := fields.filterMap fun f => (f.find? members).map fun e => Str.whole e.1
  members.filter fun m => m.1 ∉ taken

def ofMembers (members : List (Str × Value)) : Checked (Manifest Str) :=
  let given (f : Field) : Checked (Option Str) := optional f members none (nullable text)
  (Checked.zip (required preloadField members text)
    (Checked.zip (given logoField)
      (Checked.zip (given nameField)
        (Checked.zip (given pluginNameField)
          (Checked.zip (given mainField) (given versionField)))))).map
    fun (preload, logo, name, pluginName, main, version) =>
      ⟨preload, logo, name, pluginName, main, version, otherMembers members⟩

/-- The manifest under the public names of its fields, known ones first. -/
def toJson (m : Manifest String) : Value :=
  let given (s : Option Str) : Value :=
    match s with
    | some s => .string s
    | none => .null
  let known : List (Str × Value) := [
    ("preload", .string m.preload), ("logo", given (m.logo.map .whole)), ("name", given m.name),
    ("pluginName", given m.pluginName), ("main", given m.main), ("version", given m.version)]
  .object (known ++ m.others)

/-! ## Faults -/

/-- Why a manifest cannot be used. -/
inductive Fault where
  | absent (path : String)
  | undecodable (path : String) (fault : FileFault)
  | notJson (path text : String) (fault : Json.Fault)
  | notObject (path : String)
  | invalid (path : String) (details : List Detail)
  | preloadAbsent (path : Str)
  | logoAbsent (path : Str)
  /-- The name of a file has no bytes. -/
  | unencodable (fault : EncodingFault)

/-- What kind of fault it is: a file is missing, it is wrong, or the fault is one that no caller is prepared for. -/
inductive Fault.Kind where
  | absence
  | misconfiguration
  | unforeseen
deriving DecidableEq

def Fault.kind : Fault → Kind
  | .absent _ => .absence
  | .undecodable _ _ => .misconfiguration
  | .notJson _ _ _ => .misconfiguration
  | .notObject _ => .misconfiguration
  | .invalid _ _ => .misconfiguration
  | .preloadAbsent _ => .absence
  | .logoAbsent _ => .absence
  | .unencodable _ => .unforeseen

def errorCount (n : Nat) : String := if n = 1 then "1 validation error" else s!"{n} validation errors"

def Fault.message : Fault → Str
  | .absent path => s!"Plugin manifest not found: {path}"
  | .undecodable path fault => s!"Could not read plugin manifest {path}: {fault.message}"
  | .notJson path text fault => s!"Could not read plugin manifest {path}: {fault.message text}"
  | .notObject path => s!"Plugin manifest {path} must contain a JSON object"
  | .invalid path details => s!"Invalid plugin manifest {path}: {errorCount details.length} for PluginManifest"
  | .preloadAbsent path => "Preload file not found: " ++ path
  | .logoAbsent path => "Logo file not found: " ++ path
  | .unencodable fault => fault.message

/-! ## Files of manifests -/

def fileName : String := "plugin.json"

variable (w : Workspace)

/-- The manifest meant by a path: a file, or the manifest in a directory. -/
def place (config : String) : Path :=
  let path := Path.ofString config
  if w.tree.isDirectoryAt w.cwd path.toString then path.join (.ofString fileName) else path

/-- The members of the JSON object in a file. -/
def readMembers (path : String) : Except Fault (List (Str × Value)) :=
  if !w.tree.isFileAt w.cwd path then .error (.absent path)
  else
    match w.tree.readText w.cwd path with
    | .error fault => .error (.undecodable path fault)
    | .ok text =>
      match Json.read text with
      | .error fault => .error (.notJson path text fault)
      | .ok (.object members) => .ok members
      | .ok _ => .error (.notObject path)

/-! ## Named files -/

/-- Does a text with halves name a file from the root on? -/
def isAbsolute : Str → Bool
  | .whole s => (Path.ofString s).isAbsolute
  | .halved t => t.points.head? = some (.char '/')

/-- The names in a text between its slashes, without empty ones and single dots. -/
def namesIn : Str → List Str
  | .whole s => (Path.partsOf s).map .whole
  | .halved t =>
    let slash := Text.CodePoint.char '/'
    let groups := (t.points.splitBy fun a b => a ≠ slash ∧ b ≠ slash).filter (· ≠ [slash])
    (groups.map Str.ofPoints).filter (· ≠ .whole ".")

/-- The number of code points in a path, with a slash before each of its names. -/
def lengthOf (names : List Str) : Nat := names.foldl (fun n s => n + s.points.length + 1) 0

/-- Follows names from a place on, where double dots lead up. Each name is looked up, so it has to have bytes. -/
def descend : List Str → List Str → Except EncodingFault (List Str)
  | place, [] => .ok place
  | place, name :: names =>
    if name = .whole ".." then descend place.dropLast names
    else
      match EncodingFault.first? (lengthOf place + 1) name.points with
      | some fault => .error fault
      | none => descend (place ++ [name]) names

/-- Why there is no file of a name. -/
inductive Miss where
  | absent (path : Str)
  | unencodable (fault : EncodingFault)

def Miss.fault (absent : Str → Fault) : Miss → Fault
  | .absent path => absent path
  | .unencodable fault => .unencodable fault

/-- The absolute path of a file that a manifest names, if there is such a file. -/
def fileBeside? (path : Path) (named : Str) : Except Miss String :=
  let base := if isAbsolute named then [] else (Path.resolve w.cwd path.parent).map Str.whole
  match descend base (namesIn named) with
  | .error fault => .error (.unencodable fault)
  | .ok names =>
    if names.all Str.isWhole then
      let full := (Path.ofLocation (names.filterMap Str.whole?)).toString
      if w.tree.isFileAt w.cwd full then .ok full else .error (.absent full)
    else .error (.absent (.ofPoints (names.flatMap fun s => .char '/' :: s.points)))

/-! ## Loading -/

/-- Reads a manifest. Its entry module and its logo have to exist, and their paths are made absolute. -/
def load (config : String) : Except Fault (Manifest String) := do
  let path := place w config
  let members ← readMembers w path.toString
  let m ← (ofMembers members).mapError (Fault.invalid path.toString)
  let preload ← (fileBeside? w path m.preload).mapError (Miss.fault .preloadAbsent)
  match m.logo with
  | none => return m.withFiles preload none
  | some (.whole "") => return m.withFiles preload (some "")
  | some named =>
    let logo ← (fileBeside? w path named).mapError (Miss.fault .logoAbsent)
    return m.withFiles preload (some logo)

/-- What loading says in the log when it succeeds. -/
def loadedEntry (config : String) (m : Manifest String) : LogEntry :=
  ⟨.debug, .manifest, s!"Loaded plugin manifest {(place w config).toString} (preload: {m.preload})"⟩

end Manifest

end ModuleMock
