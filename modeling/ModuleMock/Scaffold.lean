import ModuleMock.Bundle.Assemble
import ModuleMock.Bundle.Purify
import ModuleMock.GeneratedFiles
import ModuleMock.Surface.Trace

/-!
# Writing generated files

- `scaffold`: the mock files beside a module; a mock for editing that exists already is left alone;
- `bundle`: the script that a host loads, from a compiled bundle.

Both are jobs on a desk: a file tree and a log. A job that fails leaves the desk as it was at that point.
-/

namespace ModuleMock

/-- What a job works on. -/
structure Desk where
  tree : FileTree
  log : List LogEntry

abbrev Job := ExceptT FileFault (StateM Desk)

structure Report where
  preloadPath : String
  written : List String := []
  skipped : List String := []
  errors : List String := []

namespace Job

def note (level : Level) (reporter : Reporter) (message : String) : Job Unit :=
  modify fun d => { d with log := d.log ++ [⟨level, reporter, message⟩] }

/-- A part of a job that only looks at the tree. -/
def look {α : Type} (f : FileTree → Except FileFault α) : Job α := do
  match f (← get).tree with
  | .ok a => return a
  | .error fault => throw fault

/-- Makes the directory of a file where it is missing. -/
def prepareDirectory (cwd : Location) (p : Path) : Job Unit := do
  let d ← get
  let (tree, result) := FileTree.makeDirectories cwd (p.parts.length + 1) d.tree p.parent
  set { d with tree }
  match result with
  | .ok () => return
  | .error fault => throw fault

/-- Writes a text to a file, making its directory where it is missing. -/
def writeText (cwd : Location) (p : Path) (text : String) : Job Unit := do
  prepareDirectory cwd p
  let d ← get
  match d.tree.write cwd p.toString (Text.encode text) with
  | .ok tree => set { d with tree }
  | .error fault => throw (.path fault p.toString)
  note .info .scaffold s!"Wrote {p.toString}"

end Job

/-- The surface of a module; its diagnostics go to the log. -/
def analyzeEntry (cwd : Location) (path : String) : Job Surface := do
  let tree := (← get).tree
  let w : Workspace := ⟨tree, cwd⟩
  let text ← Job.look fun t => t.readText cwd path
  let s := Modules.surface w [] path text
  modify fun d => { d with log := d.log ++ Modules.trace w path text }
  for e in s.errors do Job.note .warning .scaffold e
  return s

/-- Writes the mock files beside a module. -/
def scaffold (cwd : Location) (path mount : String) : Job Report := do
  let preload := Path.ofLocation (Path.resolve cwd (.ofString path))
  let s ← analyzeEntry cwd preload.toString
  let mocks := Mocks.ofSurface s mount (preloadId preload)
  let files := GeneratedFiles.beside preload
  Job.writeText cwd files.autoMock mocks.autoMock
  Job.writeText cwd files.declaration mocks.declaration
  let done : Report :=
    { preloadPath := preload.toString
      written := [files.autoMock.toString, files.declaration.toString]
      errors := s.errors }
  if (← get).tree.existsAt cwd files.userMock.toString then
    Job.note .debug .scaffold s!"Keeping existing user mock {files.userMock.toString}"
    return { done with skipped := [files.userMock.toString] }
  else
    Job.writeText cwd files.userMock mocks.userMock
    return { done with written := done.written ++ [files.userMock.toString] }

/-- Writes the script for the host from a compiled bundle, and the declaration file beside the module. -/
def bundle (cwd : Location) (compiled out path mount : String) : Job Report := do
  let preload := Path.ofLocation (Path.resolve cwd (.ofString path))
  let code ← Job.look fun t => t.readText cwd (Path.ofString compiled).toString
  let purified := Bundle.purify code
  Job.note .debug .purifier s!"Purified bundle: {purified.changes} statements rewritten or removed"
  let s ← analyzeEntry cwd preload.toString
  let target := Path.ofString out
  Job.writeText cwd target (Bundle.assemble purified.code mount (OrderedMap.keys s.named))
  let declaration := (GeneratedFiles.beside preload).declaration
  Job.writeText cwd declaration (declarationText mount (preloadId preload) purified.hasDefault)
  return { preloadPath := preload.toString
           written := [target.toString, declaration.toString]
           errors := s.errors }

end ModuleMock
