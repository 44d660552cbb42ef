import Mathlib.Data.List.SplitBy
import ModuleMock.Manifest
import ModuleMock.Proofs.Modules.Keys

/-!
# Files that a manifest names

A text names a file by the names between its slashes, seen from the directory of the manifest (`beside`). Each name is
looked up on the way, so all halves in the text have to stand for bytes (`Str.Encodable`). Either there is a file of
that name (`Names`), or there is none (`Missing`), or the text has no bytes; `fileBeside?` tells these apart.
-/

namespace ModuleMock

open Text (CodePoint Str EncodingFault)

/-! ## Texts with bytes -/

namespace Text

/-- All halves in a text stand for bytes: they are code points from U+DC80 to U+DCFF. -/
def Str.Encodable (s : Str) : Prop := ∀ n : Fin 0x800, .half n ∈ s.points → 0x480 ≤ n.val ∧ n.val < 0x500

end Text

/-! ## Files -/

namespace FileTree

variable {t : FileTree} {cwd : Location}

end FileTree

namespace Manifest

variable {w : Workspace} {p : Path} {named : Str}

/-! ## Names in a text -/

/-- Steps down into a name, or up at double dots. -/
def stepTo (place : List Str) (name : Str) : List Str :=
  if name = .whole ".." then place.dropLast else place ++ [name]

/-- The names that a text leads to, seen from the directory of the manifest. -/
def beside (w : Workspace) (p : Path) (named : Str) : List Str :=
  (namesIn named).foldl stepTo (if isAbsolute named then [] else (Path.resolve w.cwd p.parent).map .whole)

section Naming

variable (hcwd : ∀ x ∈ w.cwd, IsName x) (hp : p.Proper)

include hcwd hp

end Naming

/-! ## Looking for the file -/

/-- A text names the file with the given path: all its halves stand for bytes, and it leads to a location where a file
stands. -/
structure Names (w : Workspace) (p : Path) (named : Str) (full : String) : Prop where
  encodable : named.Encodable
  file : ∃ l ∈ w.tree.files, beside w p named = l.map .whole ∧ full = (Path.ofLocation l).toString

section Files

variable (ht : w.tree.Rooted) (hcwd : ∀ x ∈ w.cwd, IsName x) (hp : p.Proper)

include ht hcwd hp

end Files

end Manifest

end ModuleMock
