import ModuleMock.Proofs.Modules.Nesting
import ModuleMock.Proofs.Surface.Inert

/-!
# Constants are inert across modules

`Visit.Asks` leads from a module to those that its analysis asks for. If none of the modules reached so has a fault, the
constants of the first one are inert at any depth. The induction is on the number of files that are not under analysis;
it needs nothing of modules that are not asked for, since no surface depends on them (`Visit.surface_eq_asked`).
-/

namespace ModuleMock.Modules

open Syntax Script Literal

namespace Visit

/-- The analysis of one module asks for another. -/
def Asks (w : Workspace) (v v' : Visit) : Prop :=
  ∃ q ∈ (v.linked w).queries v.root, v.next? w q.specifier = some v'

/-- The surface is the same when specifiers that are not asked for lead nowhere. -/
theorem surface_eq_asked (w : Workspace) (v : Visit) : v.surface w =
    (v.view fun specifier => if specifier ∈ ((v.linked w).queries v.root).map (·.specifier) then
      (v.next? w specifier).map (surface w) else none).surface v.root := by
  rw [surface_unfold, linked]
  refine (surface_view_congr fun q hq => ?_).symm
  exact if_pos (List.mem_map_of_mem hq)

/-- A surface is inert if no module that it asks for has a fault. -/
theorem inert_surface (w : Workspace) (v : Visit)
    (h : ∀ v', Relation.ReflTransGen (Asks w) v v' → v'.root.hasFault = false) : (v.surface w).Inert := by
  have htidy : Tidy v.root := sound_parse _ _ (h v .refl)
  rw [surface_eq_asked]
  refine ModuleView.inert_surface (tidyTable_ofTree htidy) (fun specifier s hs => ?_) htidy
  obtain ⟨hasked, hs⟩ := Option.ite_none_right_eq_some.1 hs
  obtain ⟨q, hq, rfl⟩ := List.mem_map.1 hasked
  obtain ⟨v', hv', rfl⟩ := Option.map_eq_some_iff.1 hs
  exact inert_surface w v' fun u hu => h u (.head ⟨q, hq, hv'⟩ hu)
termination_by v.room w
decreasing_by exact room_lt hv'

/-- What is reached from a closed list of modules is in the list. -/
theorem mem_of_reached {w : Workspace} {visits : List Visit}
    (hclosed : ∀ v ∈ visits, ∀ q ∈ (v.linked w).queries v.root, ∀ v' ∈ v.next? w q.specifier, v' ∈ visits)
    {v v' : Visit} (hv : v ∈ visits) (h : Relation.ReflTransGen (Asks w) v v') : v' ∈ visits := by
  induction h with
  | refl => exact hv
  | tail _ hstep ih =>
    obtain ⟨q, hq, hn⟩ := hstep
    exact hclosed _ ih q hq _ hn

end Visit

/-- **Constants are inert.** If the tree of a module and the trees of the modules that its analysis reaches have no
faults, each constant among its exports, at any depth and from whatever module, is unknown, a placeholder or a literal:
no name, call or substitution of the source gets into it. -/
theorem surface_inert (w : Workspace) (path text : String)
    (h : ∀ v, Relation.ReflTransGen (Visit.Asks w) (.entry path text) v → v.root.hasFault = false) :
    ∀ value ∈ (surface w [] path text).constants,
      value = unknownValue ∨ value ∈ placeholders ∨ LiteralText value := by
  intro value hv
  exact (Visit.inert_surface w (.entry path text) h).constants hv

/-- A list with a string and a call. -/
def listModule : Workspace where
  tree := ⟨[(["a.ts"], .file (Text.encode "export const A = [\"it's\", f()]"))]⟩
  cwd := []

/-- A module that hands on the list, and has an object with a name and a getter. -/
def listUser : String := "export * from './a'\nexport default \x7b k: y, get g(): string \x7b\x7d \x7d"

/-- The list is written with its string in other quotation marks and without its call. -/
theorem surface_inert_listUser :
    (∀ v, Relation.ReflTransGen (Visit.Asks listModule) (.entry "x.ts" listUser) v → v.root.hasFault = false) ∧
      (surface listModule [] "x.ts" listUser).constants = ["['it\\'s', undefined]", "undefined as any", "''"] ∧
      LiteralText "['it\\'s', undefined]" := by
  let a : Visit := ⟨[["x.ts"]], "/a.ts", "export const A = [\"it's\", f()]"⟩
  have hfaults : ∀ v, Relation.ReflTransGen (Visit.Asks listModule) (.entry "x.ts" listUser) v →
      v.root.hasFault = false := by
    have hclosed : ∀ v ∈ [.entry "x.ts" listUser, a], ∀ q ∈ (v.linked listModule).queries v.root,
        ∀ v' ∈ v.next? listModule q.specifier, v' ∈ [.entry "x.ts" listUser, a] := by decide +kernel
    have hsound : ∀ v ∈ [.entry "x.ts" listUser, a], v.root.hasFault = false := by decide +kernel
    intro v hv
    exact hsound v (Visit.mem_of_reached hclosed List.mem_cons_self hv)
  have hconstants : (surface listModule [] "x.ts" listUser).constants =
      ["['it\\'s', undefined]", "undefined as any", "''"] := by decide +kernel
  refine ⟨hfaults, hconstants, ?_⟩
  have hmem : "['it\\'s', undefined]" ∈ (surface listModule [] "x.ts" listUser).constants := by simp [hconstants]
  rcases surface_inert listModule "x.ts" listUser hfaults _ hmem with h | h | h
  · exact absurd h (by decide)
  · exact absurd h (by decide)
  · exact h

end ModuleMock.Modules
