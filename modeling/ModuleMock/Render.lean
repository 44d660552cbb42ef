import ModuleMock.Entity
import ModuleMock.Text.WordCharacter

/-!
# Texts of mocks

- `renderMembers`: the members of an object literal, one a line, a tab for each level;
- `Mocks.ofSurface`: the three files that go beside a module: a mock that is written anew each time, the seed of a mock
  for editing, and a declaration of the types.
-/

namespace ModuleMock

/-! ## Members -/

/-- Is the text a name that needs no quotes? One line feed at its end does not count. -/
def isPlainName (name : String) : Bool :=
  match name.toList with
  | [] => false
  | c :: cs =>
    let body := if cs.getLast? = some '\n' then cs.dropLast else cs
    (c.isAlpha || c == '_' || c == '$') && body.all fun c => Text.isWordCharacter c || c == '$'

/-- A name as the key of a member: as it is, or in single quotes. -/
def propertyName (name : String) : String :=
  if isPlainName name then name
  else
    String.ofList ('\'' :: name.toList.flatMap (fun c => if c = '\\' ∨ c = '\'' then ['\\', c] else [c]) ++ ['\''])

def tabs (n : Int) : String := String.ofList (List.replicate n.toNat '\t')

mutual

/-- One member, without the separator after it. -/
def renderMember (indent : Int) (name : String) : Entity → String
  | .object props =>
    let body := ",\n".intercalate (renderEach (indent + 1) props)
    if body = "" then s!"{tabs indent}{propertyName name}: \x7b\x7d"
    else s!"{tabs indent}{propertyName name}: \x7b\n{body}\n{tabs indent}\x7d"
  | .function params result =>
    let list := ", ".intercalate params
    s!"{tabs indent}{propertyName name}({list}) \x7b\n{tabs indent}\treturn {result};\n{tabs indent}\x7d"
  | .constant value => s!"{tabs indent}{propertyName name}: {value}"

def renderEach (indent : Int) : List (String × Entity) → List String
  | [] => []
  | (name, e) :: m => renderMember indent name e :: renderEach indent m

end

/-- The members of an object literal at a level of indentation. -/
def renderMembers (indent : Int) (m : OrderedMap Entity) : String := ",\n".intercalate (renderEach indent m)

/-! ## Files -/

/-- The name that generated files give their maker. -/
def generatorName : String := "preload-mock"

/-- The property of the window that exports are mounted on, unless another is named. -/
def defaultMount : String := "preload"

/-- The name of the mock that is written anew each time, without its suffix. -/
def autoMockId : String := "_mock.auto"

structure Mocks where
  autoMock : String
  userMock : String
  declaration : String

/-- Braces around members, or empty braces. -/
def braced (members : String) : String := if members = "" then "\x7b\x7d" else s!"\x7b\n{members}\n\t\x7d"

def autoMockText (s : Surface) (mount id : String) : String :=
  let window := match s.default? with
    | some props =>
      [s!"\t// Default export members, mounted directly on window\n\twindow: {braced (renderMembers 2 props)}"]
    | none => []
  let named := renderMembers 2 s.named
  let mounted :=
    if named = "" then []
    else [s!"\t// Named exports, mounted on window.{mount}\n\t{mount}: \x7b\n{named}\n\t\x7d"]
  let body := ",\n".intercalate (window ++ mounted)
  "// This file is regenerated on every build. Do not edit it directly.\n"
    ++ s!"// Generated by {generatorName}\n"
    ++ s!"import type \x7b ExportsTypesForMock \x7d from './_{id}.d';\n\n"
    ++ "export const autoMock: ExportsTypesForMock = \x7b\n"
    ++ (if body = "" then "" else body ++ "\n")
    ++ "\x7d\n"

def userMockText (mount : String) : String :=
  "// Customize the mock implementation as needed.\n"
    ++ s!"import \x7b autoMock \x7d from './{autoMockId}';\n\n"
    ++ "// Edit the autoMock object directly or override its members, e.g.\n"
    ++ s!"// autoMock.{mount}.someFunction = () => \x7b ... \x7d\n\n"
    ++ "export default autoMock;\n"

/-- Lines of the declaration file; some are there only if there is a default export. -/
def declarationLines (mount id : String) (hasDefault : Bool) : List String :=
  let whenDefault (line : String) : List String := if hasDefault then [line] else []
  [s!"// Generated by {generatorName}", "// Do not edit this file!"]
    ++ whenDefault s!"import type defaultExport from './{id}'"
    ++ [s!"import type * as namedExports from './{id}'", ""]
    ++ whenDefault "export type PreloadDefaultType = typeof defaultExport"
    ++ ["export type PreloadNamedExportsType = typeof namedExports", "", "export interface ExportsTypesForMock \x7b"]
    ++ whenDefault "\twindow: PreloadDefaultType,"
    ++ [s!"\t{mount}: Omit<PreloadNamedExportsType, 'default'>,", "\x7d", "", "declare global \x7b"]
    ++ [if hasDefault then "\tinterface Window extends PreloadDefaultType \x7b" else "\tinterface Window \x7b"]
    ++ [s!"\t\t{mount}: PreloadNamedExportsType;", "\t\x7d", "\x7d"]

def declarationText (mount id : String) (hasDefault : Bool) : String :=
  "\n".intercalate (declarationLines mount id hasDefault) ++ "\n"

/-- The three files for a surface. -/
def Mocks.ofSurface (s : Surface) (mount id : String) : Mocks :=
  ⟨autoMockText s mount id, userMockText mount, declarationText mount id s.default?.isSome⟩

end ModuleMock
