import ModuleMock.FileTree.Basic
import ModuleMock.Script.Repair
import ModuleMock.Specifier
import ModuleMock.Surface.Exports

/-!
# Surfaces across modules

The surface of a module in a file tree. Specifiers are followed to the first candidate that can be read; a candidate
that is being analysed already ends the search.

- `Modules.surfaceWithin`: with a budget for nested modules;
- `Modules.surface`: with a budget that never runs out, since nested modules are distinct files;
- `Modules.link`: the surface that a specifier of a module stands for.
-/

namespace ModuleMock

/-- A file tree seen from a working directory. -/
structure Workspace where
  tree : FileTree
  cwd : Location

/-- Paths that end in `x` name scripts with embedded markup. -/
def dialectOf (path : String) : Script.Dialect :=
  if path.toList.getLast? = some 'x' then .markup else .plain

namespace Modules

variable (w : Workspace)

/-- The key of a module: its location. -/
def key (path : String) : Location := Path.resolve w.cwd (.ofString path)

/-- What a search for a module ends with. -/
inductive Search where
  /-- A candidate that is being analysed already. -/
  | cycle (path : Path)
  | found (path : Path) (text : String)
  | missing

/-- The module that was found: its path and its text. -/
def Search.found? : Search → Option (Path × String)
  | .found path text => some (path, text)
  | _ => none

/-- The first candidate that is being analysed or can be read. -/
def search (ancestors : List Location) : List Path → Search
  | [] => .missing
  | c :: cs =>
    if key w c.toString ∈ ancestors then .cycle c
    else
      match w.tree.readText w.cwd c.toString with
      | .ok text => .found c text
      | .error _ => search ancestors cs

/-- The surface of a module with the given path and text, where at most `budget` modules are nested. -/
def surfaceWithin : Nat → List Location → String → String → Surface
  | 0, _, path, text => Surface.ofTree path (Script.parse (dialectOf path) text) fun _ => none
  | budget + 1, ancestors, path, text =>
    let inside := key w path :: ancestors
    Surface.ofTree path (Script.parse (dialectOf path) text) fun specifier =>
      (search w inside (candidates w.cwd path specifier)).found?.map fun m =>
        surfaceWithin budget inside m.1.toString m.2

/-- Enough for any chain of nested modules: each is another file. -/
def budget : Nat := w.tree.fileLocations.length + 1

/-- The surface of a module with the given path and text, while the modules `ancestors` are being analysed. -/
def surface (ancestors : List Location) (path text : String) : Surface :=
  surfaceWithin w (budget w) ancestors path text

/-- The surface that a specifier stands for in the module at a path. -/
def link (ancestors : List Location) (importer specifier : String) : Option Surface :=
  (search w ancestors (candidates w.cwd importer specifier)).found?.map fun m =>
    surface w ancestors m.1.toString m.2

/-- The surface of a file. -/
def fileSurface (path : String) : Except FileFault Surface := do
  let text ← w.tree.readText w.cwd path
  return surface w [] path text

end Modules

end ModuleMock
