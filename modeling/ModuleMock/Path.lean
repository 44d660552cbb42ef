/-!
# Paths

A path is a root, empty for relative paths, and the names between slashes; empty names and single dots are dropped
when a path is read. Double dots stay until a path is resolved.

- `Path.ofString`, `Path.toString`: reading and writing;
- `Path.join`, `Path.parent`, `Path.name`, `Path.stem`, `Path.suffix`: parts of paths;
- `Path.resolve`, `Path.absolute`: the location of a path, seen from a working directory, and its absolute form.
-/

namespace ModuleMock

/-- A place in a file tree: the names from the root of the tree down. -/
abbrev Location := List String

instance : LawfulBEq Location := inferInstanceAs (LawfulBEq (List String))

structure Path where
  root : String
  parts : List String
deriving DecidableEq

/-- The texts between slashes. -/
def splitSlashes : List Char → List (List Char)
  | [] => [[]]
  | c :: cs =>
    if c = '/' then [] :: splitSlashes cs
    else
      match splitSlashes cs with
      | [] => [[c]]
      | p :: ps => (c :: p) :: ps

namespace Path

/-- The names of a path without empty ones and single dots. -/
def partsOf (s : String) : List String :=
  ((splitSlashes s.toList).map String.ofList).filter fun p => p ≠ "" ∧ p ≠ "."

/-- One slash at the start makes a path absolute; exactly two are kept apart from one, more are not. -/
def rootOf (s : String) : String :=
  match s.toList with
  | '/' :: '/' :: '/' :: _ => "/"
  | '/' :: '/' :: _ => "//"
  | '/' :: _ => "/"
  | _ => ""

def ofString (s : String) : Path := ⟨rootOf s, partsOf s⟩

def toString (p : Path) : String :=
  if p.root = "" ∧ p.parts = [] then "." else p.root ++ "/".intercalate p.parts

def isAbsolute (p : Path) : Bool := p.root ≠ ""

/-- The second path as seen from the first. -/
def join (a b : Path) : Path := if b.isAbsolute then b else ⟨a.root, a.parts ++ b.parts⟩

def parent (p : Path) : Path := ⟨p.root, p.parts.dropLast⟩

def name (p : Path) : String := p.parts.getLast?.getD ""

/-- A name before and from its last dot; a dot at either end of the name counts for nothing. -/
def splitName (name : String) : String × String :=
  let cs := name.toList
  let after := (cs.reverse.takeWhile (· ≠ '.')).reverse
  let before := cs.take (cs.length - after.length - 1)
  if after.length < cs.length ∧ after ≠ [] ∧ before ≠ [] then (String.ofList before, String.ofList ('.' :: after))
  else (name, "")

def stem (p : Path) : String := (splitName p.name).1

def suffix (p : Path) : String := (splitName p.name).2

/-- The path with another suffix. -/
def withSuffix (p : Path) (suffix : String) : Path := ⟨p.root, p.parts.dropLast ++ [p.stem ++ suffix]⟩

/-- Steps down into a name, or up at double dots. -/
def step (l : Location) (name : String) : Location := if name = ".." then l.dropLast else l ++ [name]

/-- The location of a path, seen from a working directory. -/
def resolve (cwd : Location) (p : Path) : Location :=
  p.parts.foldl step (if p.isAbsolute then [] else cwd)

/-- The absolute path of a location. -/
def ofLocation (l : Location) : Path := ⟨"/", l⟩

/-- A path from the root on, without double dots; two slashes at its start are kept. -/
def absolute (cwd : Location) (p : Path) : Path := ⟨if p.isAbsolute then p.root else "/", resolve cwd p⟩

end Path

end ModuleMock
