import ModuleMock.Bundle.Edit
import ModuleMock.Proofs.Text.Utf8

/-!
# Edits made at once

`splice` makes replacements in a text in one pass from its front to its back. Edits that stand in order, inside of the
text, and do not overlap are applied from the back with the same result (`applyEdits_eq_splice`). The bytes of the
result are those of the text with the same replacements made at byte positions (`encode_splice`).
-/

namespace ModuleMock.Bundle

/-- The part of a list from position `p` to position `q`. -/
def between {α : Type} (source : List α) (p q : Nat) : List α := (source.take q).drop p

/-- The rest of a list from position `p` on, where each part that a triple tells, by its first position and the one
behind its last, is replaced. -/
def splice {α : Type} (source : List α) : Nat → List (Nat × Nat × List α) → List α
  | p, [] => source.drop p
  | p, (start, stop, replacement) :: edits => between source p start ++ replacement ++ splice source stop edits

def Edit.parts (e : Edit) : Nat × Nat × List Char := (e.start, e.stop, e.replacement)

/-- The edits stand in order behind position `p`, inside of the text, and do not overlap. -/
def InOrder (source : List Char) : Nat → List Edit → Prop
  | _, [] => True
  | p, e :: edits => p ≤ e.start ∧ e.start < e.stop ∧ e.stop ≤ source.length ∧ InOrder source e.stop edits

theorem take_append_between {α : Type} {source : List α} {p q : Nat} (h : p ≤ q) :
    source.take p ++ between source p q = source.take q := by
  have ht := List.take_append_drop p (source.take q)
  rwa [List.take_take, Nat.min_eq_left h] at ht

theorem between_append_between {α : Type} {source : List α} {p q r : Nat} (h : p ≤ q) (h' : q ≤ r) :
    between source p q ++ between source q r = between source p r := by
  apply List.append_cancel_left
  rw [← List.append_assoc, take_append_between h, take_append_between h', take_append_between (Nat.le_trans h h')]

theorem between_append_drop {α : Type} {source : List α} {p q : Nat} (h : p ≤ q) :
    between source p q ++ source.drop q = source.drop p := by
  apply List.append_cancel_left
  rw [← List.append_assoc, take_append_between h, List.take_append_drop, List.take_append_drop]

namespace InOrder

variable {source : List Char} {p : Nat} {edits : List Edit}

/-- Edits that are in order from a place on begin there or later. -/
theorem start_ge (h : InOrder source p edits) : ∀ e ∈ edits, p ≤ e.start := by
  induction edits generalizing p with
  | nil => simp
  | cons e es ih =>
    obtain ⟨hp, hlt, -, hes⟩ := h
    intro e' he'
    rcases List.mem_cons.1 he' with rfl | he'
    · exact hp
    · have := ih hes e' he'
      omega

/-- Edits in order are not empty, and end inside the text. -/
theorem inside (h : InOrder source p edits) : ∀ e ∈ edits, e.start < e.stop ∧ e.stop ≤ source.length := by
  induction edits generalizing p with
  | nil => simp
  | cons e es ih =>
    obtain ⟨-, hlt, hlen, hes⟩ := h
    intro e' he'
    rcases List.mem_cons.1 he' with rfl | he'
    · exact ⟨hlt, hlen⟩
    · exact ih hes e' he'

/-- Edits in order do not overlap. -/
theorem pairwise (h : InOrder source p edits) : edits.Pairwise fun a b => a.stop ≤ b.start := by
  induction edits generalizing p with
  | nil => exact .nil
  | cons e es ih =>
    obtain ⟨-, -, -, hes⟩ := h
    exact .cons (start_ge hes) (ih hes)

theorem of_le {q : Nat} (hq : q ≤ p) (h : InOrder source p edits) : InOrder source q edits := by
  cases edits with
  | nil => exact trivial
  | cons e es => exact ⟨Nat.le_trans hq h.1, h.2⟩

/-- Edits in order that begin at one place are one. -/
theorem eq_of_start_eq (h : InOrder source p edits) {a b : Edit} (ha : a ∈ edits) (hb : b ∈ edits)
    (hab : a.start = b.start) : a = b := by
  induction edits generalizing p with
  | nil => cases ha
  | cons e es ih =>
    obtain ⟨-, hlt, -, hes⟩ := h
    rcases List.mem_cons.1 ha with rfl | ha' <;> rcases List.mem_cons.1 hb with rfl | hb'
    · rfl
    · have := start_ge hes b hb'
      omega
    · have := start_ge hes a ha'
      omega
    · exact ih hes ha' hb'

/-- Sorting edits that stand in order, the last one first, turns them around. -/
theorem mergeSort_eq_reverse (h : InOrder source p edits) :
    edits.mergeSort (fun a b => b.start ≤ a.start) = edits.reverse := by
  have hperm := List.mergeSort_perm edits fun a b => decide (b.start ≤ a.start)
  have hsorted : (edits.mergeSort fun a b => b.start ≤ a.start).Pairwise fun a b => b.start ≤ a.start := by
    refine (List.pairwise_mergeSort ?_ ?_ edits).imp of_decide_eq_true
    · intro a b c
      simp only [decide_eq_true_eq]
      omega
    · intro a b
      simp only [Bool.or_eq_true, decide_eq_true_eq]
      omega
  have hreverse : edits.reverse.Pairwise fun a b => b.start ≤ a.start := by
    rw [List.pairwise_reverse]
    refine h.pairwise.imp_of_mem fun {a b} ha _ hab => ?_
    have := (h.inside a ha).1
    omega
  refine List.Perm.eq_of_pairwise ?_ hsorted hreverse (hperm.trans (List.reverse_perm edits).symm)
  intro a b ha hb hba hab
  exact h.eq_of_start_eq (hperm.mem_iff.1 ha) (List.mem_reverse.1 hb) (Nat.le_antisymm hab hba)

end InOrder

/-- Behind the last edit applied, the text is as in the source; before, it is replaced. -/
theorem foldr_apply_eq {source : List Char} {p : Nat} {edits : List Edit} (h : InOrder source p edits) :
    edits.foldr (fun e text => Edit.apply text e) source =
      source.take p ++ splice source p (edits.map Edit.parts) := by
  induction edits generalizing p with
  | nil => exact (List.take_append_drop p source).symm
  | cons e es ih =>
    obtain ⟨hp, hlt, hlen, hes⟩ := h
    have hl : (source.take e.stop).length = e.stop := List.length_take_of_le hlen
    rw [List.foldr_cons, ih hes, Edit.apply, List.take_append_of_le_length (by omega), List.take_take,
      Nat.min_eq_left (by omega), List.drop_append_of_le_length (by omega), List.drop_eq_nil_of_le (by omega)]
    simp only [List.map_cons, Edit.parts, splice, List.nil_append, ← List.append_assoc, take_append_between hp]

/-- Edits in order that are applied from the last to the first make the splice. -/
theorem applyEdits_eq_splice {source : List Char} {edits : List Edit} (h : InOrder source 0 edits) :
    applyEdits source edits = splice source 0 (edits.map Edit.parts) := by
  rw [applyEdits, h.mergeSort_eq_reverse, List.foldl_reverse, foldr_apply_eq h]
  rfl

/-! ## Bytes -/

/-- The position of the first byte of the character at position `p`. -/
def byteOffset (source : List Char) (p : Nat) : Nat := (Text.encode (String.ofList (source.take p))).length

def Edit.byteParts (source : List Char) (e : Edit) : Nat × Nat × List UInt8 :=
  (byteOffset source e.start, byteOffset source e.stop, Text.encode (String.ofList e.replacement))

theorem take_byteOffset (source : List Char) (p : Nat) :
    (Text.encode (String.ofList source)).take (byteOffset source p) = Text.encode (String.ofList (source.take p)) := by
  have h := Text.encode_append (source.take p) (source.drop p)
  rw [List.take_append_drop] at h
  rw [h]
  exact List.take_left

theorem drop_byteOffset (source : List Char) (p : Nat) :
    (Text.encode (String.ofList source)).drop (byteOffset source p) = Text.encode (String.ofList (source.drop p)) := by
  have h := Text.encode_append (source.take p) (source.drop p)
  rw [List.take_append_drop] at h
  rw [h]
  exact List.drop_left

/-- Cutting the bytes at offsets of characters cuts the characters. -/
theorem between_byteOffset {source : List Char} {p q : Nat} (h : p ≤ q) :
    between (Text.encode (String.ofList source)) (byteOffset source p) (byteOffset source q) =
      Text.encode (String.ofList (between source p q)) := by
  have hp : byteOffset source p = byteOffset (source.take q) p := by
    rw [byteOffset, byteOffset, List.take_take, Nat.min_eq_left h]
  rw [between, take_byteOffset, hp, drop_byteOffset, between]

/-- Splicing characters is splicing their bytes. -/
theorem encode_splice {source : List Char} {p : Nat} {edits : List Edit} (h : InOrder source p edits) :
    Text.encode (String.ofList (splice source p (edits.map Edit.parts))) =
      splice (Text.encode (String.ofList source)) (byteOffset source p) (edits.map (Edit.byteParts source)) := by
  induction edits generalizing p with
  | nil => exact (drop_byteOffset source p).symm
  | cons e es ih =>
    obtain ⟨hp, -, -, hes⟩ := h
    simp only [List.map_cons, Edit.parts, Edit.byteParts, splice, Text.encode_append, between_byteOffset hp]
    rw [← ih hes]

end ModuleMock.Bundle
