import ModuleMock.Path

/-!
# Module specifiers

A specifier is a path seen from the module that names it, with or without the suffix of a source file.
`candidates` lists the paths it may mean, in the order in which they are tried.
-/

namespace ModuleMock

def sourceSuffixes : List String := [".ts", ".tsx", ".mts", ".cts", ".js", ".jsx", ".mjs", ".cjs"]

def indexNames : List String := ["index.ts", "index.js"]

/-- The path that a specifier names literally, seen from the importing module. -/
def specifierBase (cwd : Location) (importer specifier : String) : Path :=
  (Path.ofLocation (Path.resolve cwd (.ofString importer))).parent.join (.ofString specifier)

/-- The paths that a specifier may mean: as written, with a source suffix, and as a directory. A compiled suffix also
means its source. -/
def candidates (cwd : Location) (importer specifier : String) : List Path :=
  let base := specifierBase cwd importer specifier
  let siblings :=
    if base.suffix ∈ sourceSuffixes then
      if base.suffix = ".js" then [base.withSuffix ".ts"] else []
    else [Path.ofString (base.toString ++ ".ts"), Path.ofString (base.toString ++ ".js")]
  base :: siblings ++ indexNames.map fun n => base.join (.ofString n)

end ModuleMock
