import ModuleMock.Path
import ModuleMock.Text.Quoted
import ModuleMock.Text.Utf8

/-!
# File trees

A file tree is a finite list of locations with what stands there: a file with its bytes, or a directory. Paths are
followed name by name, so that `x/..` needs a directory `x`. Links, permissions and limits on names (their length, null
characters) are left out.

- `FileTree.follow`: the location that a path leads to;
- `FileTree.read`, `FileTree.readText`: contents of files;
- `FileTree.write`, `FileTree.makeDirectories`, `FileTree.remove`: changes.
-/

namespace ModuleMock

abbrev Bytes := List UInt8

inductive Item where
  | file (content : Bytes)
  | directory
deriving DecidableEq

/-- Why a path cannot be used. -/
inductive PathFault where
  | notFound
  | alreadyExists
  | notDirectory
  | isDirectory
deriving DecidableEq

/-- The number and the words of a fault. -/
def PathFault.description : PathFault → String
  | .notFound => "[Errno 2] No such file or directory"
  | .alreadyExists => "[Errno 17] File exists"
  | .notDirectory => "[Errno 20] Not a directory"
  | .isDirectory => "[Errno 21] Is a directory"

/-- What can go wrong with a file. -/
inductive FileFault where
  | path (fault : PathFault) (place : String)
  | decoding (fault : Text.Utf8Fault)

def FileFault.message : FileFault → String
  | .path fault place => fault.description ++ ": " ++ Text.shown place
  | .decoding fault => fault.message

structure FileTree where
  entries : List (Location × Item)

namespace FileTree

/-! ## Looking -/

/-- What stands at a location. The root is a directory. -/
def item? (t : FileTree) (l : Location) : Option Item :=
  if l = [] then some .directory else t.entries.lookup l

def isDirectory (t : FileTree) (l : Location) : Bool := t.item? l = some .directory

/-- The locations of all files. -/
def fileLocations (t : FileTree) : List Location :=
  t.entries.filterMap fun
    | (l, .file _) => some l
    | (_, .directory) => none

/-- Follows names from a location; each step starts in a directory. A single dot stays where it is. -/
def followFrom (t : FileTree) : Location → List String → Except PathFault Location
  | l, [] => .ok l
  | l, name :: names =>
    match t.item? l with
    | none => .error .notFound
    | some (.file _) => .error .notDirectory
    | some .directory => followFrom t (if name = "." then l else Path.step l name) names

/-- The names of a written path; a slash at the end asks for a directory, as a dot does. -/
def stepsOf (s : String) : List String :=
  let names := ((splitSlashes s.toList).map String.ofList).filter (· ≠ "")
  if s.toList.getLast? = some '/' then names ++ ["."] else names

/-- The location that a written path leads to from a working directory. -/
def follow (t : FileTree) (cwd : Location) (s : String) : Except PathFault Location :=
  if s = "" then .error .notFound
  else t.followFrom (if s.toList.head? = some '/' then [] else cwd) (stepsOf s)

/-- What stands at the end of a written path. -/
def find? (t : FileTree) (cwd : Location) (s : String) : Option Item :=
  match t.follow cwd s with
  | .ok l => t.item? l
  | .error _ => none

def isFileAt (t : FileTree) (cwd : Location) (s : String) : Bool :=
  match t.find? cwd s with
  | some (.file _) => true
  | _ => false

def isDirectoryAt (t : FileTree) (cwd : Location) (s : String) : Bool := t.find? cwd s = some .directory

def existsAt (t : FileTree) (cwd : Location) (s : String) : Bool := (t.find? cwd s).isSome

/-- The bytes of the file at a written path. -/
def read (t : FileTree) (cwd : Location) (s : String) : Except PathFault Bytes := do
  let l ← t.follow cwd s
  match t.item? l with
  | none => .error .notFound
  | some .directory => .error .isDirectory
  | some (.file content) => .ok content

/-- The text of the file at a written path, with line feeds for all line ends. -/
def readText (t : FileTree) (cwd : Location) (s : String) : Except FileFault String :=
  match t.read cwd s with
  | .error fault => .error (.path fault s)
  | .ok bytes =>
    match Text.decodeLines bytes with
    | .error fault => .error (.decoding fault)
    | .ok text => .ok text

/-! ## Changing -/

/-- Puts an item at a location. -/
def put (t : FileTree) (l : Location) (i : Item) : FileTree :=
  if l ∈ t.entries.map (·.1) then ⟨t.entries.map fun e => if e.1 = l then (l, i) else e⟩
  else ⟨t.entries ++ [(l, i)]⟩

/-- Removes an item and all that is below it. -/
def remove (t : FileTree) (l : Location) : FileTree := ⟨t.entries.filter fun e => ¬ l <+: e.1⟩

/-- Writes the bytes of a file, new or not. -/
def write (t : FileTree) (cwd : Location) (s : String) (content : Bytes) : Except PathFault FileTree := do
  let l ← t.follow cwd s
  match t.item? l with
  | some .directory => .error .isDirectory
  | some (.file _) => .ok (t.put l (.file content))
  | none => if t.isDirectory l.dropLast then .ok (t.put l (.file content)) else .error .notFound

/-- Makes one directory whose parent exists. -/
def makeDirectory (t : FileTree) (cwd : Location) (s : String) : Except PathFault FileTree := do
  let l ← t.follow cwd s
  match t.item? l with
  | some _ => .error .alreadyExists
  | none => if t.isDirectory l.dropLast then .ok (t.put l .directory) else .error .notFound

/-- Makes a directory and the directories above it, where they are missing; `depth` bounds how many. What has been made
stays even if a later step fails. -/
def makeDirectories (cwd : Location) : Nat → FileTree → Path → FileTree × Except FileFault Unit
  | 0, t, p => (t, .error (.path .notFound p.toString))
  | depth + 1, t, p =>
    match t.makeDirectory cwd p.toString with
    | .ok t' => (t', .ok ())
    | .error .notFound =>
      if p.parent = p then (t, .error (.path .notFound p.toString))
      else
        match makeDirectories cwd depth t p.parent with
        | (t', .error fault) => (t', .error fault)
        | (t', .ok ()) =>
          match t'.makeDirectory cwd p.toString with
          | .ok t'' => (t'', .ok ())
          | .error fault =>
            if t'.isDirectoryAt cwd p.toString then (t', .ok ()) else (t', .error (.path fault p.toString))
    | .error fault =>
      if t.isDirectoryAt cwd p.toString then (t, .ok ()) else (t, .error (.path fault p.toString))

end FileTree

end ModuleMock
