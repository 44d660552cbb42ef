import Mathlib.Data.Fintype.Pigeonhole
import ModuleMock.Proofs.Literal.Following

/-!
# Chains of aliases

A name whose initial value is another name is an alias of it (`aliasOf?`). Aliases form a chain (`aliasChain`), which
revisits a name or ends at a name that is no alias.

- `Revisits.endless`, `Endless.revisits`, `exists_end`: a chain comes to a name again exactly if it has no end;
- `nameForm_of_endless`: no name of such a chain is written as a literal;
- `nameForm_of_end`: on any other chain a name is written as the initial value of the last one, if that value does not
  lead back to the chain.
-/

namespace ModuleMock

open Syntax

namespace Literal

/-! ## Chains -/

/-- The name that is the initial value of a name, below all wrappers. -/
def aliasOf? (table : DeclarationTable) (name : String) : Option String :=
  (initialOf? table name).bind fun v => if v.unwrap.isForm .identifier then some v.unwrap.text else none

/-- The name after a number of steps along the chain of aliases of a name. -/
def aliasChain (table : DeclarationTable) (name : String) : Nat → Option String
  | 0 => some name
  | i + 1 => (aliasChain table name i).bind (aliasOf? table)

/-- The chain of a name comes to a name again. -/
def Revisits (table : DeclarationTable) (name : String) : Prop :=
  ∃ i j a, i < j ∧ aliasChain table name i = some a ∧ aliasChain table name j = some a

section Chains

variable {table : DeclarationTable} {resolving : List String} {name next last : String}

/-- A name that stands for another has it for its initial value, wrappers aside. -/
theorem initialOf?_of_aliasOf? (h : aliasOf? table name = some next) :
    ∃ v, initialOf? table name = some v ∧ v.unwrap.isForm .identifier = true ∧ v.unwrap.text = next := by
  obtain ⟨v, hv, h⟩ := Option.bind_eq_some_iff.1 h
  split at h
  · rename_i hname
    exact ⟨v, hv, hname, Option.some.inj h⟩
  · cases h

/-- Following an alias leaves fewer names to follow. -/
theorem pending_of_aliasOf? (h : aliasOf? table name = some next) (hname : name ∉ resolving) :
    pending table (name :: resolving) < pending table resolving := by
  obtain ⟨v, hv, -⟩ := initialOf?_of_aliasOf? h
  obtain ⟨_, hl⟩ := lookup_of_initialOf? hv
  exact pending_cons_lt hl hname

/-- Chains of aliases compose. -/
theorem aliasChain_add (table : DeclarationTable) (name : String) (i j : Nat) :
    aliasChain table name (i + j) = (aliasChain table name i).bind fun a => aliasChain table a j := by
  induction j with
  | zero => simp [aliasChain]
  | succ j ih =>
    rw [← Nat.add_assoc, aliasChain, ih, Option.bind_assoc]
    rfl

/-- The chain of an alias goes on with that of the next name. -/
theorem aliasChain_succ (h : aliasOf? table name = some next) (i : Nat) :
    aliasChain table name (i + 1) = aliasChain table next i := by
  rw [Nat.add_comm, aliasChain_add, aliasChain, aliasChain, Option.bind_some, h, Option.bind_some]

/-- A chain that can be followed far can be followed less far. -/
theorem isSome_of_le {i j : Nat} (hij : i ≤ j) (h : (aliasChain table name j).isSome = true) :
    (aliasChain table name i).isSome = true := by
  obtain ⟨d, rfl⟩ := Nat.exists_eq_add_of_le hij
  rw [aliasChain_add] at h
  cases hi : aliasChain table name i with
  | none => rw [hi] at h; cases h
  | some a => rfl

theorem exists_aliasOf? {k : Nat} (h : aliasChain table name (k + 1) = some last) :
    ∃ next, aliasOf? table name = some next :=
  Option.isSome_iff_exists.1 (isSome_of_le (by omega : 1 ≤ k + 1) (Option.isSome_iff_exists.2 ⟨last, h⟩))

/-- The chain has no end. -/
def Endless (table : DeclarationTable) (name : String) : Prop := ∀ i, (aliasChain table name i).isSome = true

/-- Endless aliases stay endless. -/
theorem Endless.step (h : Endless table name) : ∃ next, aliasOf? table name = some next ∧ Endless table next := by
  obtain ⟨next, hnext⟩ := Option.isSome_iff_exists.1 (h 1)
  refine ⟨next, hnext, fun i => ?_⟩
  rw [← aliasChain_succ hnext]
  exact h (i + 1)

/-- Aliases that come back to a name never end. -/
theorem Revisits.endless (h : Revisits table name) : Endless table name := by
  obtain ⟨i, j, a, hij, hi, hj⟩ := h
  obtain ⟨p, rfl⟩ := Nat.exists_eq_add_of_lt hij
  have hloop : aliasChain table a (p + 1) = some a := by
    rwa [Nat.add_assoc, aliasChain_add, hi] at hj
  -- going round the loop as often as need be leads past any number of steps
  have hround : ∀ k, aliasChain table name (i + k * (p + 1)) = some a := by
    intro k
    induction k with
    | zero => simpa using hi
    | succ k ih => rw [Nat.succ_mul, ← Nat.add_assoc, aliasChain_add, ih, Option.bind_some, hloop]
  intro k
  refine isSome_of_le ?_ (Option.isSome_iff_exists.2 ⟨a, hround k⟩)
  have := Nat.le_mul_of_pos_right k (by omega : 0 < p + 1)
  omega

/-- There are only so many names. -/
theorem Endless.revisits (h : Endless table name) : Revisits table name := by
  have hkey : ∀ i, (aliasChain table name i).get (h i) ∈ OrderedMap.keys table := by
    intro i
    have hnext := h (i + 1)
    rw [aliasChain] at hnext
    obtain ⟨a, ha⟩ := Option.isSome_iff_exists.1 (h i)
    simp only [ha, Option.bind_some, Option.get_some] at hnext ⊢
    obtain ⟨next, hnext⟩ := Option.isSome_iff_exists.1 hnext
    obtain ⟨v, hv, -⟩ := initialOf?_of_aliasOf? hnext
    obtain ⟨_, hl⟩ := lookup_of_initialOf? hv
    exact List.mem_map.2 ⟨_, mem_of_lookup hl, rfl⟩
  let visit (i : Nat) : { a // a ∈ OrderedMap.keys table } := ⟨_, hkey i⟩
  obtain ⟨i, j, hne, heq⟩ := Finite.exists_ne_map_eq_of_infinite visit
  have hsame : aliasChain table name i = aliasChain table name j := by
    have := congrArg Subtype.val heq
    rw [Option.eq_some_of_isSome (h i), Option.eq_some_of_isSome (h j)]
    exact congrArg some this
  obtain ⟨a, ha⟩ := Option.isSome_iff_exists.1 (h i)
  rcases Nat.lt_or_gt_of_ne hne with hij | hij
  · exact ⟨i, j, a, hij, ha, hsame ▸ ha⟩
  · exact ⟨j, i, a, hij, hsame ▸ ha, ha⟩

/-- Aliases that end come back to no name. -/
theorem not_revisits_of_end {k : Nat} (hk : aliasChain table name k = some last) (hend : aliasOf? table last = none) :
    ¬Revisits table name := by
  intro hr
  have hnext := hr.endless (k + 1)
  rw [aliasChain, hk, Option.bind_some, hend] at hnext
  cases hnext

/-- Aliases that come back to no name end. -/
theorem exists_end (h : ¬Revisits table name) :
    ∃ k last, aliasChain table name k = some last ∧ aliasOf? table last = none := by
  by_contra hend
  push Not at hend
  refine h (Endless.revisits fun i => ?_)
  induction i with
  | zero => rfl
  | succ i ih =>
    obtain ⟨a, ha⟩ := Option.isSome_iff_exists.1 ih
    rw [aliasChain, ha, Option.bind_some]
    exact Option.isSome_iff_ne_none.2 (hend i a ha)

theorem aliasChain_of_chain {i : Nat} (h : aliasChain table name i = some next) (j : Nat) :
    aliasChain table name (i + j) = aliasChain table next j := by rw [aliasChain_add, h, Option.bind_some]

theorem Revisits.of_chain {i : Nat} (h : aliasChain table name i = some next) (hr : Revisits table next) :
    Revisits table name := by
  obtain ⟨j, j', a, hj, ha, ha'⟩ := hr
  exact ⟨i + j, i + j', a, by omega, by rwa [aliasChain_of_chain h], by rwa [aliasChain_of_chain h]⟩

theorem Revisits.of_next (h : aliasOf? table name = some next) (hr : Revisits table next) : Revisits table name :=
  .of_chain (i := 1) h hr

/-- A name that its own alias leads back to is revisited. -/
theorem Revisits.of_loop {i : Nat} (h : aliasOf? table name = some next) (hi : aliasChain table next i = some name) :
    Revisits table name := ⟨0, i + 1, name, by omega, rfl, by rwa [aliasChain_succ h]⟩

end Chains

/-! ## Forms of aliases -/

section Forms

variable {table : DeclarationTable} {resolving : List String} {name next last : String}

theorem serializeWith_identifier (follow : String → Option String) {n : Node} (h : n.isForm .identifier = true) :
    serializeWith follow n = follow n.text := by
  obtain ⟨k, l, e, m, cs⟩ := n
  obtain rfl : k = .form .identifier := by simpa [Node.isForm, Node.kind] using h
  rfl

/-- The form of an alias is that of the next name. -/
theorem nameForm_of_aliasOf? (h : aliasOf? table name = some next) (hname : name ∉ resolving) :
    nameForm table resolving name = nameForm table (name :: resolving) next := by
  obtain ⟨v, hv, hform, rfl⟩ := initialOf?_of_aliasOf? h
  rw [nameForm, if_neg hname, hv, Option.bind_some, serializeIn_eq, ← serializeWith_unwrap,
    serializeWith_identifier _ hform]

/-- A name whose aliases never end has no literal form. -/
theorem nameForm_of_endless {resolving : List String} {name : String} (h : Endless table name) :
    nameForm table resolving name = none := by
  by_cases hname : name ∈ resolving
  · rw [nameForm, if_pos hname]
  · obtain ⟨next, hnext, hendless⟩ := h.step
    rw [nameForm_of_aliasOf? hnext hname]
    exact nameForm_of_endless hendless
termination_by pending table resolving
decreasing_by exact pending_of_aliasOf? hnext hname

/-- From a last name whose initial value is neither an array nor an object no name is reached. -/
theorem not_reaches_of_end {v : Node} {a : String} (hend : aliasOf? table last = none)
    (hv : initialOf? table last = some v) (harray : v.unwrap.isForm .array = false)
    (hobject : v.unwrap.isForm .object = false) : ¬Reaches table v a := by
  have hname : v.unwrap.isForm .identifier = false := by
    rw [aliasOf?, hv, Option.bind_some] at hend
    cases h : v.unwrap.isForm .identifier with
    | false => rfl
    | true => simp [h] at hend
  rintro ⟨b, hb, -⟩
  rw [mentions_eq_nil hname harray hobject] at hb
  cases hb

/-- The form of the initial value of a name. -/
def ownForm (table : DeclarationTable) (name : String) : Option String :=
  (initialOf? table name).bind (serializeIn table [])

/-- Neither names being followed nor names of the chain make a difference to the form at its end, unless they can be
reached from there. -/
theorem nameForm_of_end (hend : aliasOf? table last = none) : ∀ (k : Nat) (name : String) (resolving : List String),
    ¬Revisits table name → aliasChain table name k = some last →
    (∀ a ∈ resolving, ∀ v, initialOf? table last = some v → ¬Reaches table v a) →
    (∀ i a, i ≤ k → aliasChain table name i = some a →
      a ∉ resolving ∧ ∀ v, initialOf? table last = some v → ¬Reaches table v a) →
    nameForm table resolving name = ownForm table last
  | 0, name, resolving, _, hk, hresolving, hchain => by
    obtain rfl := Option.some.inj hk
    obtain ⟨hname, hself⟩ := hchain 0 name (Nat.le_refl 0) rfl
    rw [nameForm, if_neg hname, ownForm]
    cases hv : initialOf? table name with
    | none => rfl
    | some v =>
      refine serializeIn_congr fun a ha => ?_
      have hout : a ∉ name :: resolving := by
        rintro (_ | ⟨_, hmem⟩)
        · exact hself v hv ha
        · exact hresolving a hmem v hv ha
      simp [hout]
  | k + 1, name, resolving, hr, hk, hresolving, hchain => by
    obtain ⟨hname, hself⟩ := hchain 0 name (Nat.zero_le _) rfl
    obtain ⟨next, hnext⟩ := exists_aliasOf? hk
    rw [nameForm_of_aliasOf? hnext hname]
    rw [aliasChain_succ hnext] at hk
    refine nameForm_of_end hend k next (name :: resolving) (fun h => hr (.of_next hnext h)) hk ?_ ?_
    · rintro a (_ | ⟨_, hmem⟩)
      · exact hself
      · exact hresolving a hmem
    · intro i a hi ha
      obtain ⟨hout, hfar⟩ := hchain (i + 1) a (by omega) (by rwa [aliasChain_succ hnext])
      refine ⟨?_, hfar⟩
      rintro (_ | ⟨_, hmem⟩)
      · exact hr (.of_loop hnext ha)
      · exact hout hmem

end Forms

end Literal

end ModuleMock
