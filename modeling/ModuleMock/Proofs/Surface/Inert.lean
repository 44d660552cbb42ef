import ModuleMock.Proofs.Literal.Closed
import ModuleMock.Proofs.Surface.Kept

/-!
# Constants are inert

The constants of a surface, at any depth, are placeholders or literals (`IsInert`), if its tree is tidy and the same
holds of the surfaces of the modules that it names (`ModuleView.inert_surface`): a module with tidy declarations keeps
that property (`Scope.keeps_inert`).
-/

namespace ModuleMock

open Syntax Script Literal

/-! ## Constants -/

mutual

/-- The constants of an entity, at any depth. -/
def Entity.constants : Entity → List String
  | .function _ _ => []
  | .constant value => [value]
  | .object props => Entity.constantsOf props

def Entity.constantsOf : List (String × Entity) → List String
  | [] => []
  | (_, e) :: props => e.constants ++ Entity.constantsOf props

end

/-- The constants of all exports of a module. -/
def Surface.constants (s : Surface) : List String :=
  Entity.constantsOf s.named ++ Entity.constantsOf (s.default?.getD [])

/-- The placeholders for the results of functions. -/
def placeholders : List String :=
  [promiseValue, unknownValue, opaqueObject, "''", "0", "false", "undefined", "null"]

/-- A value that refers to nothing in the source: unknown, a placeholder, or a literal. -/
def IsInert (value : String) : Prop := value = unknownValue ∨ value ∈ placeholders ∨ LiteralText value

/-- The stand-ins for predefined types are placeholders. -/
theorem predefinedValue_mem_placeholders (name : String) : predefinedValue name ∈ placeholders := by
  unfold predefinedValue
  split <;> simp [placeholders]

/-- Every type has a placeholder. -/
theorem typeValue_mem_placeholders (type : Node) : typeValue type ∈ placeholders := by
  have hopaque : opaqueObject ∈ placeholders := by simp [placeholders]
  have hpromise : promiseValue ∈ placeholders := by simp [placeholders]
  unfold typeValue
  split
  · exact predefinedValue_mem_placeholders _
  · split
    · split
      · simp [placeholders]
      · split
        · simp [placeholders]
        · exact hopaque
    · exact hopaque
  · split
    · exact hpromise
    · split
      · rename_i h
        rcases h with h | h <;> simp [h, placeholders]
      · exact hopaque
  · split
    · split
      · exact hpromise
      · exact hopaque
    · exact hopaque
  · exact hopaque

/-- The result of every function has a placeholder. -/
theorem resultValue_mem_placeholders (function : Node) : resultValue function ∈ placeholders := by
  unfold resultValue
  split
  · simp [placeholders]
  · split
    · simp [placeholders]
    · split
      · split
        · exact typeValue_mem_placeholders _
        · simp [placeholders]
      · simp [placeholders]

namespace Entity

/-- All constants of the entity are inert. -/
def Inert (e : Entity) : Prop := ∀ value ∈ e.constants, IsInert value

theorem mem_constantsOf {value : String} : ∀ props : List (String × Entity),
    value ∈ constantsOf props ↔ ∃ p ∈ props, value ∈ p.2.constants
  | [] => by simp [constantsOf]
  | (k, e) :: props => by simp [constantsOf, mem_constantsOf props]

@[simp] theorem inert_constant {value : String} : (constant value).Inert ↔ IsInert value := by simp [Inert, constants]

/-- An object is inert if its properties are. -/
@[simp] theorem inert_object {props : List (String × Entity)} : (object props).Inert ↔ ∀ p ∈ props, p.2.Inert := by
  simp only [Inert, constants, mem_constantsOf]
  constructor
  · intro h p hp value hv
    exact h value ⟨p, hp, hv⟩
  · rintro h value ⟨p, hp, hv⟩
    exact h p hp value hv

@[simp] theorem inert_unknown : unknown.Inert := inert_constant.2 (.inl rfl)

@[simp] theorem inert_ofFunction {n : Node} : (ofFunction n).Inert := by simp [ofFunction, Inert, constants]

end Entity

/-- All exports of the module are inert. -/
abbrev Surface.Inert (s : Surface) : Prop := s.Has Entity.Inert

/-- Each constant of an inert surface is inert. -/
theorem Surface.Has.constants {s : Surface} (h : s.Inert) {value : String} (hv : value ∈ s.constants) :
    IsInert value := by
  rcases List.mem_append.1 hv with hv | hv
  · obtain ⟨p, hp, hv⟩ := (Entity.mem_constantsOf _).1 hv
    exact h.named.entities p hp value hv
  · cases hd : s.default? with
    | none => simp [hd, Entity.constantsOf] at hv
    | some props =>
      rw [hd] at hv
      obtain ⟨p, hp, hv⟩ := (Entity.mem_constantsOf _).1 hv
      exact (h.default props hd).entities p hp value hv

/-! ## Modules -/

/-- A module whose declarations are tidy keeps its constants inert, as far as they are read from tidy nodes. -/
theorem Scope.keeps_inert {scope : Scope} (ht : TidyTable scope.table)
    (h : ∀ source s, scope.link source = some s → s.Inert) : scope.Keeps Entity.Inert Tidy where
  unknown := Entity.inert_unknown
  function _ := Entity.inert_ofFunction
  object hp := Entity.inert_object.2 hp.entities
  result n := Entity.inert_constant.2 (.inr (.inl (resultValue_mem_placeholders n)))
  literal hn htext := Entity.inert_constant.2 (.inr (.inr (literalText_serialize ht hn htext)))
  children := tidy_of_isForm
  initial := ht
  link := h

/-- The exports of a tidy module are inert, if those of the modules that it names are. -/
theorem ModuleView.inert_surface {v : ModuleView} {root : Node} (htable : TidyTable v.table)
    (h : ∀ source s, v.link source = some s → s.Inert) (ht : Tidy root) : (v.surface root).Inert := by
  refine has_surface (Scope.keeps_inert htable h) fun n hn => ?_
  obtain ⟨hmem, hf⟩ := List.mem_filter.1 hn
  cases ht with
  | mk _ children => exact children n hmem (by simp_all [isExempt, Node.isForm])

end ModuleMock
