import ModuleMock.Bundle.Purify
import ModuleMock.Proofs.Bundle.Splice

/-!
# Purifying is local

A removal may take more than its statement: the blanks beside it and the line end, if nothing else stands on the line.
For nodes that stand in order and start and end with characters of their own (`Sits`), the parts that are replaced and
removed still never meet. The purified bundle is the bundle from front to back with every node kept, replaced or removed
in its place (`Purifies`).
-/

namespace ModuleMock.Bundle

open Syntax

/-- A node takes up a part of the text that starts with neither a blank nor a line break and does not end with a blank.
Only before a line break, where a comment ends, its last character may be a blank. -/
structure Sits (source : List Char) (n : Node) : Prop where
  start_lt_stop : n.extent.start < n.extent.stop
  stop_le : n.extent.stop ≤ source.length
  first : ∀ c ∈ source[n.extent.start]?, ¬ isInlineBlank c ∧ c ≠ '\n' ∧ c ≠ '\r'
  last : (∀ c ∈ source[n.extent.stop - 1]?, ¬ isInlineBlank c) ∨ ∀ c ∈ source[n.extent.stop]?, c = '\n' ∨ c = '\r'

-- tests of the characters at hand, so that a decision never runs over all characters
instance (source : List Char) (n : Node) : Decidable (Sits source n) :=
  decidable_of_iff
    (n.extent.start < n.extent.stop ∧ n.extent.stop ≤ source.length ∧
      source[n.extent.start]?.all (fun c => !isInlineBlank c && c != '\n' && c != '\r') ∧
      (source[n.extent.stop - 1]?.all (fun c => !isInlineBlank c) ∨
        source[n.extent.stop]?.all (fun c => c == '\n' || c == '\r')))
    ⟨fun ⟨h₁, h₂, h₃, h₄⟩ => ⟨h₁, h₂, by simpa [Option.all_eq_true, and_assoc] using h₃,
        by simpa [Option.all_eq_true] using h₄⟩,
      fun ⟨h₁, h₂, h₃, h₄⟩ => ⟨h₁, h₂, by simpa [Option.all_eq_true, and_assoc] using h₃,
        by simpa [Option.all_eq_true] using h₄⟩⟩

/-- The characters from `start` to `stop` share their line with nothing but spaces and tabs. The line goes from `a` to
`b`, together with its line feed, with a carriage return before it or not; the last line of a text may have none. -/
structure OwnLine (source : List Char) (start stop a b : Nat) : Prop where
  left : ∃ pre pad, source.take start = pre ++ pad ∧ pre.length = a ∧ (∀ c ∈ pad, isInlineBlank c) ∧
    (pre = [] ∨ pre.getLast? = some '\n')
  right : ∃ pad ending post, source.drop stop = pad ++ ending ++ post ∧ stop + pad.length + ending.length = b ∧
    (∀ c ∈ pad, isInlineBlank c) ∧ (ending = ['\n'] ∨ ending = ['\r', '\n'] ∨ ending = [] ∧ post = [])

/-- What purifying makes of the text from position `p` on, where the given nodes stand. -/
inductive Purifies (source : List Char) : Nat → List Node → List Char → Prop where
  | done {p : Nat} : Purifies source p [] (source.drop p)
  | kept {p : Nat} {n : Node} {ns : List Node} {out : List Char} (hv : verdict n = .keep) (hp : p ≤ n.extent.start)
      (h : Purifies source n.extent.stop ns out) :
      Purifies source p (n :: ns)
        (between source p n.extent.start ++ between source n.extent.start n.extent.stop ++ out)
  | mounted {p : Nat} {n : Node} {ns : List Node} {out : List Char} {value : String} (hv : verdict n = .mount value)
      (hp : p ≤ n.extent.start) (h : Purifies source n.extent.stop ns out) :
      Purifies source p (n :: ns)
        (between source p n.extent.start ++ s!"Object.assign(window, {value});".toList ++ out)
  | declared {p : Nat} {n : Node} {ns : List Node} {out : List Char} {name value : String}
      (hv : verdict n = .declare name value) (hp : p ≤ n.extent.start) (h : Purifies source n.extent.stop ns out) :
      Purifies source p (n :: ns) (between source p n.extent.start ++ s!"const {name} = {value};".toList ++ out)
  | removed {p : Nat} {n : Node} {ns : List Node} {out : List Char} (hv : verdict n = .remove)
      (hl : ∀ a b, ¬ OwnLine source n.extent.start n.extent.stop a b) (hp : p ≤ n.extent.start)
      (h : Purifies source n.extent.stop ns out) :
      Purifies source p (n :: ns) (between source p n.extent.start ++ out)
  | removedLine {p : Nat} {n : Node} {ns : List Node} {out : List Char} {a b : Nat} (hv : verdict n = .remove)
      (hl : OwnLine source n.extent.start n.extent.stop a b) (hp : p ≤ a) (h : Purifies source b ns out) :
      Purifies source p (n :: ns) (between source p a ++ out)

/-! ## Lines -/

theorem takeWhile_blank_append {pad rest : List Char} (hpad : ∀ c ∈ pad, isInlineBlank c)
    (hrest : ∀ c ∈ rest.head?, ¬ isInlineBlank c) : (pad ++ rest).takeWhile isInlineBlank = pad := by
  rw [List.takeWhile_append_of_pos hpad]
  cases rest with
  | nil => simp
  | cons c cs => simp [hrest c rfl]

/-- Blanks at the front of a text, and a rest that starts with none. -/
theorem exists_blanks (cs : List Char) :
    ∃ pad rest, cs = pad ++ rest ∧ (∀ c ∈ pad, isInlineBlank c) ∧ ∀ c ∈ rest.head?, ¬ isInlineBlank c := by
  refine ⟨cs.takeWhile isInlineBlank, cs.dropWhile isInlineBlank, List.takeWhile_append_dropWhile.symm, ?_, ?_⟩
  · exact fun c hc => List.all_eq_true.1 List.all_takeWhile c hc
  · intro c hc
    have := List.head?_dropWhile_not isInlineBlank cs
    rw [Option.mem_def.1 hc] at this
    simpa using this

/-- The length of the line end at the front of a text. -/
def lineEnd? : List Char → Option Nat
  | '\r' :: '\n' :: _ => some 2
  | '\n' :: _ => some 1
  | [] => some 0
  | _ => none

/-- A line ends with a feed, with a return before it, or with the text. -/
theorem lineEnd?_eq_some {cs : List Char} {k : Nat} (h : lineEnd? cs = some k) :
    ∃ ending post, cs = ending ++ post ∧ ending.length = k ∧
      (ending = ['\n'] ∨ ending = ['\r', '\n'] ∨ ending = [] ∧ post = []) := by
  unfold lineEnd? at h
  split at h
  case h_1 post => exact ⟨['\r', '\n'], post, rfl, Option.some.inj h, by simp⟩
  case h_2 post => exact ⟨['\n'], post, rfl, Option.some.inj h, by simp⟩
  case h_3 => exact ⟨[], [], rfl, Option.some.inj h, by simp⟩
  case h_4 => cases h

/-- The blanks beside the removed characters tell their line. -/
theorem removal_of_split {source pre pad gap rest : List Char} {start stop : Nat}
    (htake : source.take start = pre ++ pad) (hpad : ∀ c ∈ pad, isInlineBlank c)
    (hpre : ∀ c ∈ pre.getLast?, ¬ isInlineBlank c) (hdrop : source.drop stop = gap ++ rest)
    (hgap : ∀ c ∈ gap, isInlineBlank c) (hrest : ∀ c ∈ rest.head?, ¬ isInlineBlank c) :
    removal source start stop =
      if pre = [] ∨ pre.getLast? = some '\n' then
        (lineEnd? rest).elim ⟨start, stop, []⟩ fun k => ⟨start - pad.length, stop + gap.length + k, []⟩
      else ⟨start, stop, []⟩ := by
  have hleft : ((source.take start).reverse.takeWhile isInlineBlank) = pad.reverse := by
    rw [htake, List.reverse_append, takeWhile_blank_append (by simpa using hpad) (by simpa using hpre)]
  have hright : (source.drop stop).takeWhile isInlineBlank = gap := by
    rw [hdrop, takeWhile_blank_append hgap hrest]
  have hbefore : (source.take start).reverse.drop pad.length = pre.reverse := by
    rw [htake, List.reverse_append, List.drop_left' (by simp)]
  have hafter : (source.drop stop).drop gap.length = rest := by
    rw [hdrop, List.drop_left]
  unfold removal
  simp only [hleft, hright, List.length_reverse, hbefore, hafter]
  congr 1
  · rcases List.eq_nil_or_concat pre with rfl | ⟨pre', c, rfl⟩ <;> simp
  · unfold lineEnd?
    split <;> simp_all

namespace OwnLine

variable {source : List Char} {start stop a b : Nat}

/-- A line that is removed begins no later than the statement on it. -/
theorem start_le (h : OwnLine source start stop a b) (hs : start ≤ source.length) : a ≤ start := by
  obtain ⟨⟨pre, pad, htake, hpre, -, -⟩, -⟩ := h
  have := congrArg List.length htake
  rw [List.length_take_of_le hs, List.length_append] at this
  omega

/-- It ends no earlier than the statement. -/
theorem stop_le (h : OwnLine source start stop a b) : stop ≤ b := by
  obtain ⟨-, ⟨pad, ending, post, -, hb, -, -⟩⟩ := h
  omega

theorem le_length (h : OwnLine source start stop a b) (hs : stop ≤ source.length) : b ≤ source.length := by
  obtain ⟨-, ⟨pad, ending, post, hdrop, hb, -, -⟩⟩ := h
  have := congrArg List.length hdrop
  simp only [List.length_drop, List.length_append] at this
  omega

/-- What the line holds before the characters. -/
theorem blank_before (h : OwnLine source start stop a b) {i : Nat} (ha : a ≤ i) (hi : i < start) :
    ∀ c ∈ source[i]?, isInlineBlank c := by
  obtain ⟨⟨pre, pad, htake, rfl, hpad, -⟩, -⟩ := h
  intro c hc
  rw [← List.getElem?_take_of_lt hi, htake, List.getElem?_append_right ha] at hc
  exact hpad c (List.mem_of_getElem? hc)

/-- What the line holds after the characters. -/
theorem blank_after (h : OwnLine source start stop a b) {i : Nat} (hs : stop ≤ i) (hi : i < b) :
    ∀ c ∈ source[i]?, isInlineBlank c ∨ c = '\n' ∨ c = '\r' := by
  obtain ⟨-, ⟨pad, ending, post, hdrop, hb, hpad, hend⟩⟩ := h
  intro c hc
  obtain ⟨j, rfl⟩ := Nat.exists_eq_add_of_le hs
  rw [← List.getElem?_drop, hdrop, List.append_assoc] at hc
  by_cases hj : j < pad.length
  · rw [List.getElem?_append_left hj] at hc
    exact .inl (hpad c (List.mem_of_getElem? hc))
  · rw [List.getElem?_append_right (by omega), List.getElem?_append_left (by omega)] at hc
    have hmem := List.mem_of_getElem? hc
    have hend : ending = ['\n'] ∨ ending = ['\r', '\n'] := by
      rcases hend with h | h | ⟨rfl, -⟩
      · exact .inl h
      · exact .inr h
      · cases hmem
    rcases hend with rfl | rfl
    · exact .inr (.inl (List.mem_singleton.1 hmem))
    · exact .inr (by simpa [or_comm] using hmem)

theorem ends (h : OwnLine source start stop a b) (hs : stop ≤ source.length) :
    b = source.length ∨ stop < b ∧ source[b - 1]? = some '\n' := by
  obtain ⟨-, ⟨pad, ending, post, hdrop, hb, -, hend⟩⟩ := h
  rcases hend with rfl | rfl | ⟨rfl, rfl⟩
  · refine .inr ⟨by simp at hb; omega, ?_⟩
    rw [← hb, List.length_singleton, Nat.add_sub_cancel, ← List.getElem?_drop, hdrop]
    simp
  · refine .inr ⟨by simp at hb; omega, ?_⟩
    rw [← hb, List.length_cons, List.length_singleton, Nat.add_assoc, Nat.add_sub_assoc (by omega), ← List.getElem?_drop, hdrop]
    simp
  · have := congrArg List.length hdrop
    simp at this hb
    omega

/-- A statement that has a line of its own is removed with the line. -/
theorem removal_eq (h : OwnLine source start stop a b) (hs : start ≤ source.length) :
    removal source start stop = ⟨a, b, []⟩ := by
  obtain ⟨⟨pre, pad, htake, hpre, hpad, hopens⟩, ⟨pad', ending, post, hdrop, hb, hpad', hend⟩⟩ := h
  have hlen : a + pad.length = start := by
    have := congrArg List.length htake
    rw [List.length_take_of_le hs, List.length_append, hpre] at this
    exact this.symm
  rw [List.append_assoc] at hdrop
  have hpre' : ∀ c ∈ pre.getLast?, ¬ isInlineBlank c := by
    rcases hopens with rfl | hn
    · simp
    · rw [hn]
      simp [isInlineBlank]
  have hrest : ∀ c ∈ (ending ++ post).head?, ¬ isInlineBlank c := by
    rcases hend with rfl | rfl | ⟨rfl, rfl⟩ <;> simp [isInlineBlank]
  rw [removal_of_split htake hpad hpre' hdrop hpad' hrest, if_pos hopens, ← hb, ← hlen, Nat.add_sub_cancel]
  rcases hend with rfl | rfl | ⟨rfl, rfl⟩ <;> rfl

end OwnLine

/-- A removal takes the whole line, or only the statement. -/
theorem removal_cases (source : List Char) {start : Nat} (stop : Nat) (hs : start ≤ source.length) :
    (∃ a b, OwnLine source start stop a b ∧ removal source start stop = ⟨a, b, []⟩) ∨
      (∀ a b, ¬ OwnLine source start stop a b) ∧ removal source start stop = ⟨start, stop, []⟩ := by
  by_cases h : ∃ a b, OwnLine source start stop a b
  · obtain ⟨a, b, h⟩ := h
    exact .inl ⟨a, b, h, h.removal_eq hs⟩
  · have hnone : ∀ a b, ¬ OwnLine source start stop a b := fun a b hl => h ⟨a, b, hl⟩
    refine .inr ⟨hnone, ?_⟩
    obtain ⟨pad, pre, hrev, hpad, hpre⟩ := exists_blanks (source.take start).reverse
    obtain ⟨gap, rest, hdrop, hgap, hrest⟩ := exists_blanks (source.drop stop)
    have htake : source.take start = pre.reverse ++ pad.reverse := by
      rw [← List.reverse_append, ← hrev, List.reverse_reverse]
    rw [removal_of_split htake (by simpa using hpad) (by simpa using hpre) hdrop hgap hrest]
    split
    case isFalse => rfl
    case isTrue hopens =>
      cases hk : lineEnd? rest with
      | none => rfl
      | some k =>
        obtain ⟨ending, post, rfl, -, hend⟩ := lineEnd?_eq_some hk
        rw [← List.append_assoc] at hdrop
        exact absurd ⟨⟨_, _, htake, rfl, by simpa using hpad, hopens⟩, ⟨_, _, _, hdrop, rfl, hgap, hend⟩⟩ (hnone _ _)

/-! ## Neighbours -/

/-- The nodes stand behind position `p`, together with the lines that they have for themselves. -/
def Clear (source : List Char) (p : Nat) (ns : List Node) : Prop :=
  ∀ n ∈ ns, p ≤ n.extent.start ∧ ∀ a b, OwnLine source n.extent.start n.extent.stop a b → p ≤ a

section

variable {source : List Char} {m n : Node} {a b : Nat}

/-- A line that a node has for itself starts behind the nodes before. -/
theorem Sits.stop_le_line (hm : Sits source m) (hn : Sits source n) (hmn : m.extent.stop ≤ n.extent.start)
    (hl : OwnLine source n.extent.start n.extent.stop a b) : m.extent.stop ≤ a := by
  refine Nat.not_lt.1 fun hlt => ?_
  have hm₁ := hm.start_lt_stop
  have hn₁ := hn.start_lt_stop
  have hn₂ := hn.stop_le
  have hlast := hl.blank_before (i := m.extent.stop - 1) (by omega) (by omega)
  have hnext : ∀ c ∈ source[m.extent.stop]?, ¬ (c = '\n' ∨ c = '\r') := by
    intro c hc
    rcases Nat.lt_or_eq_of_le hmn with hlt' | heq
    · have := hl.blank_before (by omega) hlt' c hc
      rintro (rfl | rfl) <;> simp [isInlineBlank] at this
    · rw [heq] at hc
      have := hn.first c hc
      rintro (rfl | rfl) <;> simp at this
  rcases hm.last with hs | hs
  · have hi : m.extent.stop - 1 < source.length := by omega
    exact hs _ (List.getElem?_eq_getElem hi) (hlast _ (List.getElem?_eq_getElem hi))
  · have hi : m.extent.stop < source.length := by omega
    exact hnext _ (List.getElem?_eq_getElem hi) (hs _ (List.getElem?_eq_getElem hi))

/-- A line that a node has for itself ends before the nodes behind. -/
theorem Sits.line_le_start (hn : Sits source n) (hmn : m.extent.stop ≤ n.extent.start)
    (hl : OwnLine source m.extent.start m.extent.stop a b) : b ≤ n.extent.start := by
  refine Nat.not_lt.1 fun hlt => ?_
  have hn₁ := hn.start_lt_stop
  have hn₂ := hn.stop_le
  have hi : n.extent.start < source.length := by omega
  obtain ⟨hblank, hfeed, hreturn⟩ := hn.first _ (List.getElem?_eq_getElem hi)
  rcases hl.blank_after hmn (by omega) _ (List.getElem?_eq_getElem hi) with h | h | h
  · exact hblank h
  · exact hfeed h
  · exact hreturn h

/-- The line of a statement ends before the line of a later one begins. -/
theorem Sits.line_le_line (hm : Sits source m) (hn : Sits source n) (hmn : m.extent.stop ≤ n.extent.start)
    (hl : OwnLine source m.extent.start m.extent.stop a b) {a' b' : Nat}
    (hl' : OwnLine source n.extent.start n.extent.stop a' b') : b ≤ a' := by
  have hb := hn.line_le_start hmn hl
  have hn₁ := hn.start_lt_stop
  have hn₂ := hn.stop_le
  rcases hl.ends hm.stop_le with hlen | ⟨hstop, hend⟩
  · omega
  · -- The line feed of the first line is none of the blanks of the second.
    refine Nat.not_lt.1 fun hlt => ?_
    have := hl'.blank_before (i := b - 1) (by omega) (by omega) _ hend
    simp [isInlineBlank] at this

end

/-! ## One node -/

section

variable {source : List Char} {n : Node} {e : Edit}

theorem verdict_of_edit?_none (h : edit? source n = none) : verdict n = .keep := by
  unfold edit? at h
  split at h
  · assumption
  all_goals cases h

/-- Comments are kept. -/
theorem verdict_comment (h : n.isForm .comment) : verdict n = .keep := by
  have hk : n.kind = .form .comment := eq_of_beq h
  have he : n.isForm .expressionStatement = false := by
    rw [Node.isForm, hk]
    decide
  simp [verdict, he]

/-- The edit of a node replaces the node or removes the line that it has for itself. -/
theorem edit?_range (hn : Sits source n) (h : edit? source n = some e) :
    (e.start = n.extent.start ∧ e.stop = n.extent.stop) ∨ OwnLine source n.extent.start n.extent.stop e.start e.stop := by
  have hs : n.extent.start ≤ source.length := Nat.le_trans (Nat.le_of_lt hn.start_lt_stop) hn.stop_le
  unfold edit? at h
  split at h
  case h_1 => cases h
  case h_2 =>
    obtain rfl := Option.some.inj h
    rcases removal_cases source n.extent.stop hs with ⟨a, b, hl, hr⟩ | ⟨-, hr⟩
    · rw [hr]
      exact .inr hl
    · rw [hr]
      exact .inl ⟨rfl, rfl⟩
  all_goals
    obtain rfl := Option.some.inj h
    exact .inl ⟨rfl, rfl⟩

/-- Each edit covers some of the text, and ends inside it. -/
theorem edit?_inside (hn : Sits source n) (h : edit? source n = some e) : e.start < e.stop ∧ e.stop ≤ source.length := by
  have hlt := hn.start_lt_stop
  have hle := hn.stop_le
  rcases edit?_range hn h with ⟨hs, he⟩ | hl
  · omega
  · have := hl.start_le (by omega)
    have := hl.stop_le
    have := hl.le_length hle
    omega

/-- A changed node in its place. -/
theorem Purifies.changed {p : Nat} {ns : List Node} {out : List Char} (hn : Sits source n)
    (he : edit? source n = some e) (hp : p ≤ e.start) (h : Purifies source e.stop ns out) :
    Purifies source p (n :: ns) (between source p e.start ++ e.replacement ++ out) := by
  have hs : n.extent.start ≤ source.length := Nat.le_trans (Nat.le_of_lt hn.start_lt_stop) hn.stop_le
  unfold edit? at he
  split at he
  case h_1 => cases he
  case h_2 hv =>
    obtain rfl := Option.some.inj he
    rcases removal_cases source n.extent.stop hs with ⟨a, b, hl, hr⟩ | ⟨hl, hr⟩
    · rw [hr] at hp h ⊢
      rw [List.append_nil]
      exact .removedLine hv hl hp h
    · rw [hr] at hp h ⊢
      rw [List.append_nil]
      exact .removed hv hl hp h
  case h_3 value hv =>
    obtain rfl := Option.some.inj he
    exact .mounted hv hp h
  case h_4 name value hv =>
    obtain rfl := Option.some.inj he
    exact .declared hv hp h

/-- Behind a node that is not changed, or behind its edit, the further nodes stand clear. -/
theorem Clear.tail {ns : List Node} (hns : ∀ m ∈ n :: ns, Sits source m)
    (hp : (n :: ns).Pairwise fun m m' => m.extent.stop ≤ m'.extent.start) :
    Clear source n.extent.stop ns ∧ ∀ e, edit? source n = some e → Clear source e.stop ns := by
  have hn := hns n (by simp)
  have hclear : Clear source n.extent.stop ns := fun m hm =>
    ⟨List.rel_of_pairwise_cons hp hm, fun a b hl =>
      hn.stop_le_line (hns m (by simp [hm])) (List.rel_of_pairwise_cons hp hm) hl⟩
  refine ⟨hclear, fun e he => ?_⟩
  rcases edit?_range hn he with ⟨-, hstop⟩ | hline
  · rwa [hstop]
  · intro m hm
    have hnm := List.rel_of_pairwise_cons hp hm
    have hm' := hns m (by simp [hm])
    exact ⟨hm'.line_le_start hnm hline, fun a b hl => hn.line_le_line hm' hnm hline hl⟩

end

/-! ## All nodes -/

/-- The text before the first edit is kept. -/
theorem splice_skip {source : List Char} {p q : Nat} {edits : List Edit} (hpq : p ≤ q) (h : InOrder source q edits) :
    splice source p (edits.map Edit.parts) = between source p q ++ splice source q (edits.map Edit.parts) := by
  cases edits with
  | nil => exact (between_append_drop hpq).symm
  | cons e es =>
    simp only [List.map_cons, Edit.parts, splice, ← List.append_assoc, between_append_between hpq h.1]

/-- The edits of statements in order are in order, and purify them one by one. -/
theorem inOrder_and_purifies {source : List Char} {ns : List Node} {p : Nat} (hns : ∀ n ∈ ns, Sits source n)
    (hpw : ns.Pairwise fun m n => m.extent.stop ≤ n.extent.start) (hp : Clear source p ns) :
    InOrder source p (ns.filterMap (edit? source)) ∧
      Purifies source p ns (splice source p ((ns.filterMap (edit? source)).map Edit.parts)) := by
  induction ns generalizing p with
  | nil => exact ⟨trivial, .done⟩
  | cons n ns ih =>
    have hn := hns n (by simp)
    obtain ⟨hstart, hline⟩ := hp n (by simp)
    obtain ⟨hkept, hchanged⟩ := Clear.tail hns hpw
    have ih := fun q hq => ih (p := q) (fun m hm => hns m (by simp [hm])) hpw.tail hq
    cases he : edit? source n with
    | none =>
      obtain ⟨ho, hout⟩ := ih _ hkept
      have hle := Nat.le_of_lt hn.start_lt_stop
      rw [List.filterMap_cons_none he, splice_skip (Nat.le_trans hstart hle) ho, ← between_append_between hstart hle]
      exact ⟨ho.of_le (Nat.le_trans hstart hle), .kept (verdict_of_edit?_none he) hstart hout⟩
    | some e =>
      obtain ⟨ho, hout⟩ := ih _ (hchanged e he)
      obtain ⟨hlt, hlen⟩ := edit?_inside hn he
      have hpe : p ≤ e.start := by
        rcases edit?_range hn he with ⟨hs, -⟩ | hl
        · omega
        · exact hline _ _ hl
      rw [List.filterMap_cons_some he]
      exact ⟨⟨hpe, hlt, hlen, ho⟩, hout.changed hn he hpe⟩

/-- Purifying is local. For nodes in their order, the edits are inside of the bundle and do not overlap, making them
from the back is making them at once, each node is kept, replaced or removed in its place, comments are kept, and the
bytes that are left and put in are those of the purified bundle. -/
theorem purifyNodes_local (code : String) (nodes : List Node) (hnodes : ∀ n ∈ nodes, Sits code.toList n)
    (horder : nodes.Pairwise fun m n => m.extent.stop ≤ n.extent.start) :
    let edits := nodes.filterMap (edit? code.toList)
    (∀ e ∈ edits, e.start < e.stop ∧ e.stop ≤ code.toList.length) ∧
      (edits.Pairwise fun a b => a.stop ≤ b.start) ∧
      (purifyNodes code nodes).code = String.ofList (splice code.toList 0 (edits.map Edit.parts)) ∧
      Purifies code.toList 0 nodes (purifyNodes code nodes).code.toList ∧
      (∀ n ∈ nodes, n.isForm .comment → verdict n = .keep) ∧
      Text.decode (splice (Text.encode code) 0 (edits.map (Edit.byteParts code.toList))) =
        .ok (purifyNodes code nodes).code := by
  intro edits
  have hclear : Clear code.toList 0 nodes := fun _ _ => ⟨Nat.zero_le _, fun _ _ _ => Nat.zero_le _⟩
  obtain ⟨ho, hout⟩ := inOrder_and_purifies hnodes horder hclear
  have hcode : (purifyNodes code nodes).code = String.ofList (splice code.toList 0 (edits.map Edit.parts)) :=
    congrArg String.ofList (applyEdits_eq_splice ho)
  refine ⟨ho.inside, ho.pairwise, hcode, ?_, fun _ _ => verdict_comment, ?_⟩
  · rwa [hcode, String.toList_ofList]
  · have hbytes := encode_splice ho
    rw [String.ofList_toList] at hbytes
    rw [hcode, ← Text.decode_encode (String.ofList _), hbytes]
    rfl

/-- Removals at the front of the text, on adjacent lines, on a shared line, beside a replacement and at the end of the
text, with line ends of both kinds. -/
def crowdedBundle : String :=
  " exports.a=void 0; \r\n\texports.b=b;\nexports.c=c; exports.d=\"é\";\r\n// ï \r\nexports.default=m;\n exports.e=e"

def crowdedNodes : List Node := (Script.parse .plain crowdedBundle).namedChildren

def crowdedEdits : List Edit := crowdedNodes.filterMap (edit? crowdedBundle.toList)

def crowdedResult : String := " const d = \"é\";\r\n// ï \r\nObject.assign(window, m);\n"

theorem purifyNodes_local_crowded :
    (∀ n ∈ crowdedNodes, Sits crowdedBundle.toList n) ∧
      (crowdedNodes.Pairwise fun m n => m.extent.stop ≤ n.extent.start) ∧ crowdedEdits.length = 6 ∧
      Purifies crowdedBundle.toList 0 crowdedNodes crowdedResult.toList ∧
      Text.decode (splice (Text.encode crowdedBundle) 0 (crowdedEdits.map (Edit.byteParts crowdedBundle.toList))) =
        .ok crowdedResult := by
  have hclosed : (∀ n ∈ crowdedNodes, Sits crowdedBundle.toList n) ∧
      (crowdedNodes.Pairwise fun m n => m.extent.stop ≤ n.extent.start) ∧ crowdedEdits.length = 6 ∧
      splice crowdedBundle.toList 0 (crowdedEdits.map Edit.parts) = crowdedResult.toList := by decide +kernel
  obtain ⟨hsits, horder, hedits, hsplice⟩ := hclosed
  obtain ⟨-, -, hcode, hout, -, hbytes⟩ := purifyNodes_local crowdedBundle crowdedNodes hsits horder
  rw [← crowdedEdits, hsplice, String.ofList_toList] at hcode
  rw [hcode] at hout hbytes
  exact ⟨hsits, horder, hedits, hout, hbytes⟩

end ModuleMock.Bundle
