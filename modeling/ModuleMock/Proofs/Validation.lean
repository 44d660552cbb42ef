import ModuleMock.Validation

/-!
# What checks accept

For each way to build a check: exactly which values pass it, and what they give. A field is found under its alias, and
under its plain name where the alias is missing (`Field.value?`).
-/

namespace ModuleMock.Validation

open Json (Value)
open Text (Str)

variable {α β : Type} {members : List (Str × Value)} {f : Field}

namespace Checked

/-- Two checks made together pass if both do. -/
theorem zip_eq_ok {a : Checked α} {b : Checked β} {x : α} {y : β} : a.zip b = .ok (x, y) ↔ a = .ok x ∧ b = .ok y := by
  cases a <;> cases b <;> simp [zip]

/-- Where a check is made does not change whether it passes. -/
theorem under_eq_ok {s : Step} {a : Checked α} {x : α} : a.under s = .ok x ↔ a = .ok x := by
  cases a with
  | error ds => exact iff_of_false nofun nofun
  | ok y => exact Iff.rfl

theorem map_eq_ok {g : α → β} {a : Checked α} {y : β} : Except.map g a = .ok y ↔ ∃ x, a = .ok x ∧ g x = y := by
  cases a <;> simp [Except.map]

end Checked

/-- What passes if it may be absent is `null`, or else passes the check itself. -/
theorem nullable_eq_ok {check : Value → Checked α} {v : Value} {x : Option α} :
    nullable check v = .ok x ↔ v = .null ∧ x = none ∨ v ≠ .null ∧ ∃ y, check v = .ok y ∧ some y = x := by
  cases v with
  | null => simp [nullable, eq_comm]
  | _ => simp [nullable, Checked.map_eq_ok]

/-! ## Fields -/

/-- The value of a field. -/
def Field.value? (f : Field) (members : List (Str × Value)) : Option Value :=
  (f.alias?.bind fun a => members.lookup (.whole a)).or (members.lookup (.whole f.name))

/-- The member that is found for a field holds the field's value. -/
theorem Field.map_find? (f : Field) (members : List (Str × Value)) :
    (f.find? members).map Prod.snd = f.value? members := by
  unfold find? value?
  cases f.alias? with
  | none => cases members.lookup (.whole f.name) <;> rfl
  | some a =>
    cases ha : members.lookup (.whole a) with
    | none => cases members.lookup (.whole f.name) <;> simp [ha]
    | some v => simp [ha]

/-- A required field passes if it has a value that does. -/
theorem required_eq_ok {check : Value → Checked α} {x : α} :
    required f members check = .ok x ↔ ∃ v, f.value? members = some v ∧ check v = .ok x := by
  rw [← Field.map_find?]
  unfold required
  cases hf : f.find? members with
  | none => simp
  | some e => simp [Checked.under_eq_ok]

/-- An optional field passes with its default if it has no value, and otherwise with the value it has. -/
theorem optional_eq_ok {check : Value → Checked α} {fallback x : α} : optional f members fallback check = .ok x ↔
    f.value? members = none ∧ x = fallback ∨ ∃ v, f.value? members = some v ∧ check v = .ok x := by
  rw [← Field.map_find?]
  unfold optional
  cases hf : f.find? members with
  | none => simp [eq_comm]
  | some e => simp [Checked.under_eq_ok]

end ModuleMock.Validation
