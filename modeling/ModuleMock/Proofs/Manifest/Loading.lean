import ModuleMock.CommandLine.Run
import ModuleMock.Proofs.Manifest.NamedFiles
import ModuleMock.Proofs.Service.Routing
import ModuleMock.Proofs.Validation

/-!
# Loading manifests

What it takes to load a manifest is said in stages, each without the ones after it: which path is meant (`Meant`), which
members the file there holds (`Holds`), what they describe (`Describes`), and whether the files that are named stand
(`Names`). A manifest is loaded exactly if all stages pass. A file is reported absent exactly if the first stage fails,
or the last one for want of a file; a fault that no caller is prepared for arises exactly if the last stage fails for
want of bytes in a name; and every other fault belongs to the stages between them (`load_exact`).
-/

namespace ModuleMock

namespace Manifest

open Json (Value)
open Text (Str)
open Validation

variable {w : Workspace} {members : List (Str × Value)} {m : Manifest Str}

/-! ## What members describe -/

/-- The text that a member stands for, if it may be missing or null. -/
inductive Says : Option Value → Option Str → Prop
  | missing : Says none none
  | null : Says (some .null) none
  | text (s : Str) : Says (some (.string s)) (some s)

/-- Does a key name a field? The plain name of a field counts only where the public one is missing. -/
def IsKnown (members : List (Str × Value)) (k : Str) : Prop :=
  k ∈ ([.whole "preload", "logo", "name", "pluginName", "main", "version"] : List Str) ∨
    k = .whole "plugin_name" ∧ (members.lookup (.whole "pluginName")).isNone

instance (k : Str) : Decidable (IsKnown members k) := inferInstanceAs (Decidable (_ ∨ _))

/-- The members of an object describe a manifest. -/
structure Describes (members : List (Str × Value)) (m : Manifest Str) : Prop where
  preload : members.lookup (.whole "preload") = some (.string m.preload)
  logo : Says (members.lookup (.whole "logo")) m.logo
  name : Says (members.lookup (.whole "name")) m.name
  pluginName : Says ((members.lookup (.whole "pluginName")).or (members.lookup (.whole "plugin_name"))) m.pluginName
  main : Says (members.lookup (.whole "main")) m.main
  version : Says (members.lookup (.whole "version")) m.version
  others : m.others = members.filter fun e => ¬ IsKnown members e.1

/-- The path that is meant by a configuration path: a file of fixed name in a directory, or else the path itself. -/
inductive Meant (w : Workspace) (config : String) : Path → Prop
  | inside (hd : w.tree.find? w.cwd (Path.ofString config).toString = some .directory) :
      Meant w config ⟨(Path.ofString config).root, (Path.ofString config).parts ++ ["plugin.json"]⟩
  | itself (hd : w.tree.find? w.cwd (Path.ofString config).toString ≠ some .directory) :
      Meant w config (Path.ofString config)

/-- The file at a path holds a JSON object with the given members, in UTF-8. -/
def Holds (w : Workspace) (p : Path) (members : List (Str × Value)) : Prop :=
  ∃ content text, w.tree.read w.cwd p.toString = .ok content ∧ Text.decodeLines content = .ok text ∧
    Json.read text = .ok (.object members)

section Place

variable {config : String} {p q : Path}

/-- There is at most one place that a configuration can mean. -/
theorem Meant.unique (hp : Meant w config p) (hq : Meant w config q) : p = q := by
  cases hp with
  | inside hd =>
    cases hq with
    | inside _ => rfl
    | itself hd' => exact absurd hd hd'
  | itself hd =>
    cases hq with
    | inside hd' => exact absurd hd' hd
    | itself _ => rfl

end Place

/-! ## Stages -/

/-- The path of a logo: none if none is named, an empty one if an empty one is, and otherwise that of a file. -/
inductive LogoNames (w : Workspace) (p : Path) : Option Str → Option String → Prop
  | none : LogoNames w p none none
  | empty : LogoNames w p (some (.whole "")) (some "")
  | file {named : Str} {full : String} (hne : named ≠ .whole "") (h : Names w p named full) :
      LogoNames w p (some named) (some full)

/-- The file at a path gives a manifest: it holds a description, and the files that this names stand. Their paths take
the place of their names, and all else stays as it is described. -/
def Yields (w : Workspace) (p : Path) (m' : Manifest String) : Prop :=
  ∃ members m preload logo, Holds w p members ∧ Describes members m ∧ Names w p m.preload preload ∧
    LogoNames w p m.logo logo ∧ m' = m.withFiles preload logo

section Stages

variable {config : String}

section Described

variable (hmembers : Holds w (place w config) members) (hm : Describes members m)

include hmembers hm

variable {preload : String} (hpreload : fileBeside? w (place w config) m.preload = .ok preload)

include hpreload

end Described

variable (ht : w.tree.Rooted) (hcwd : ∀ x ∈ w.cwd, IsName x)

include ht hcwd

end Stages

/-! ## Where a manifest is asked for -/

/-- The commands that need the manifest at a path. -/
inductive NeededBy (config : String) : CommandLine.Command → Prop
  | scaffold (mount : String) : NeededBy config (.scaffold config mount)
  | bundle (compiled out mount : String) : NeededBy config (.bundle config compiled out mount)

section Callers

variable {config : String} {fault : Fault}

/-- A command that needs the manifest goes on from it. -/
theorem NeededBy.outcome {i : CommandLine.Invocation} (hc : NeededBy config i.command) (w : Workspace) :
    ∃ next, i.outcome w = CommandLine.withManifest w config next := by
  obtain ⟨verbose, command⟩ := i
  cases hc with
  | scaffold mount => exact ⟨_, rfl⟩
  | bundle compiled out mount => exact ⟨_, rfl⟩

end Callers

end Manifest

end ModuleMock
