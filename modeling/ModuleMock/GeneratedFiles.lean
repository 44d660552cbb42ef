import ModuleMock.Path
import ModuleMock.Render

/-!
# Where generated files go

The files generated for a module stand beside it and are named after it.
-/

namespace ModuleMock

/-- The name of a module without its last suffix. -/
def preloadId (path : Path) : String := path.stem

structure GeneratedFiles where
  autoMock : Path
  declaration : Path
  userMock : Path

/-- The files for the module at a path. -/
def GeneratedFiles.beside (path : Path) : GeneratedFiles :=
  let within (name : String) : Path := path.parent.join (.ofString name)
  ⟨within (autoMockId ++ ".ts"), within ("_" ++ preloadId path ++ ".d.ts"), within (preloadId path ++ ".mock.ts")⟩

end ModuleMock
