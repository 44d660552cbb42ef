import ModuleMock.Syntax.Node

/-!
# Preorder

An address leads from a node to one below it (`Node.at?`), and addresses are compared as in preorder (`Precedes`).
`ListedBy` ties a relation between addresses and values to a list: the list has what holds at the addresses, in preorder.
One lemma gives the list of a node from those of its children (`ListedBy.below`), so a tree lists its own nodes
(`listedBy_preorder`), and a search through a list finds what comes first in preorder (`ListedBy.find?_eq_some`).
-/

namespace ModuleMock

open Syntax

/-! ## Addresses -/

/-- The way from a node to one below it: the number of the child at each step. -/
abbrev Address := List Nat

/-- In preorder a node comes before all nodes below it, and before all that branch off later. -/
def Precedes (a b : Address) : Prop := List.Lex (· < ·) a b

namespace Precedes

theorem irrefl (a : Address) : ¬ Precedes a a := List.lt_irrefl a

theorem asymm {a b : Address} (h : Precedes a b) : ¬ Precedes b a := List.lt_asymm h

/-- Two addresses of which neither comes before the other are one. -/
theorem antisymm {a b : Address} (h : a = b ∨ Precedes a b) (h' : b = a ∨ Precedes b a) : a = b := by
  rcases h with h | h
  · exact h
  · rcases h' with h' | h'
    · exact h'.symm
    · exact absurd h' h.asymm

end Precedes

/-! ## Lists in preorder -/

/-- The list has what holds at the addresses, in preorder. -/
def ListedBy {α : Type} (P : Address → α → Prop) (xs : List α) : Prop :=
  ∃ sites : List (Address × α), sites.Pairwise (fun s s' => Precedes s.1 s'.1) ∧ (∀ a x, (a, x) ∈ sites ↔ P a x) ∧
    sites.map Prod.snd = xs

namespace ListedBy

variable {α : Type} {P Q : Address → α → Prop} {xs : List α}

/-- A list depends on which elements stand where, and on nothing else. -/
theorem congr (h : ListedBy P xs) (hPQ : ∀ a x, P a x ↔ Q a x) : ListedBy Q xs := by
  obtain ⟨sites, hsorted, hmem, hxs⟩ := h
  exact ⟨sites, hsorted, fun a x => (hmem a x).trans (hPQ a x), hxs⟩

theorem nil (h : ∀ a x, ¬ P a x) : ListedBy P [] := ⟨[], .nil, fun a x => by simp [h a x], rfl⟩

theorem singleton (x : α) : ListedBy (fun a y => a = [] ∧ y = x) [x] :=
  ⟨[([], x)], List.pairwise_singleton _ _, fun a y => by simp, rfl⟩

/-- What holds at the node itself comes first. -/
theorem cons (h : ListedBy P xs) (hroot : ∀ x, ¬ P [] x) (x : α) :
    ListedBy (fun a y => a = [] ∧ y = x ∨ P a y) (x :: xs) := by
  obtain ⟨sites, hsorted, hmem, rfl⟩ := h
  refine ⟨([], x) :: sites, List.pairwise_cons.2 ⟨fun s hs => ?_, hsorted⟩, fun a y => ?_, rfl⟩
  · obtain ⟨a, y⟩ := s
    cases a with
    | nil => exact absurd ((hmem [] y).1 hs) (hroot y)
    | cons i a => exact .nil
  · rw [List.mem_cons, hmem, Prod.mk.injEq]

/-- What is listed for each child is listed for all of them, with the child's index before each address. -/
theorem below_from {P : Node → Address → α → Prop} {f : Node → List α} (cs : List Node)
    (h : ∀ c ∈ cs, ListedBy (P c) (f c)) (k : Nat) :
    ListedBy (fun a x => ∃ i c b, a = (k + i) :: b ∧ cs[i]? = some c ∧ P c b x) (cs.flatMap f) := by
  induction cs generalizing k with
  | nil => exact nil (by simp)
  | cons c cs ih =>
    obtain ⟨first, hfirst, hmemFirst, hf⟩ := h c List.mem_cons_self
    obtain ⟨rest, hrest, hmemRest, hr⟩ := ih (fun d hd => h d (List.mem_cons_of_mem _ hd)) (k + 1)
    refine ⟨first.map (fun s => (k :: s.1, s.2)) ++ rest, ?_, fun a x => ?_, ?_⟩
    · refine List.pairwise_append.2 ⟨List.pairwise_map.2 (hfirst.imp fun hs => .cons hs), hrest, ?_⟩
      intro s hs s' hs'
      obtain ⟨t, -, rfl⟩ := List.mem_map.1 hs
      obtain ⟨i, d, b, ha, -, -⟩ := (hmemRest s'.1 s'.2).1 hs'
      rw [ha]
      exact .rel (by omega)
    · have hmap : (a, x) ∈ first.map (fun s => (k :: s.1, s.2)) ↔ ∃ b, a = k :: b ∧ P c b x := by
        simp only [List.mem_map, Prod.mk.injEq, Prod.exists, hmemFirst]
        constructor
        · rintro ⟨b, y, hb, rfl, rfl⟩
          exact ⟨b, rfl, hb⟩
        · rintro ⟨b, rfl, hb⟩
          exact ⟨b, x, hb, rfl, rfl⟩
      rw [List.mem_append, hmap, hmemRest]
      constructor
      · rintro (⟨b, rfl, hb⟩ | ⟨i, d, b, rfl, hd, hb⟩)
        · exact ⟨0, c, b, rfl, rfl, hb⟩
        · exact ⟨i + 1, d, b, by rw [Nat.add_right_comm, Nat.add_assoc], hd, hb⟩
      · rintro ⟨i, d, b, rfl, hd, hb⟩
        cases i with
        | zero =>
          obtain rfl : c = d := by simpa using hd
          exact .inl ⟨b, rfl, hb⟩
        | succ i => exact .inr ⟨i, d, b, by rw [Nat.add_right_comm, Nat.add_assoc], by simpa using hd, hb⟩
    · rw [List.map_append, List.map_map, hr, List.flatMap_cons, ← hf]
      rfl

/-- What holds below the children of a node is listed child by child. -/
theorem below {P : Node → Address → α → Prop} {f : Node → List α} (cs : List Node)
    (h : ∀ c ∈ cs, ListedBy (P c) (f c)) :
    ListedBy (fun a x => ∃ i c b, a = i :: b ∧ cs[i]? = some c ∧ P c b x) (cs.flatMap f) := by
  refine (below_from cs h 0).congr fun a x => ?_
  simp only [Nat.zero_add]

/-- No two elements stand at one address. -/
theorem unique (h : ListedBy P xs) {a : Address} {y z : α} (hy : P a y) (hz : P a z) : y = z := by
  obtain ⟨sites, hsorted, hmem, -⟩ := h
  obtain ⟨before, after, rfl⟩ := List.append_of_mem ((hmem a y).2 hy)
  obtain ⟨-, hafter, hbefore⟩ := List.pairwise_append.1 hsorted
  rcases List.mem_append.1 ((hmem a z).2 hz) with hz | hz
  · exact absurd (hbefore _ hz _ List.mem_cons_self) (Precedes.irrefl a)
  · rcases List.mem_cons.1 hz with hz | hz
    · exact (Prod.mk.inj hz).2.symm
    · exact absurd ((List.pairwise_cons.1 hafter).1 _ hz) (Precedes.irrefl a)

section Search

variable {p : α → Bool} {x : α}

/-- What a search through the list finds stands before all else that it could have found. -/
theorem first_of_find? (h : ListedBy P xs) (hfind : xs.find? p = some x) :
    ∃ a, P a x ∧ p x = true ∧ ∀ b y, P b y → p y = true → a = b ∨ Precedes a b := by
  obtain ⟨sites, hsorted, hmem, rfl⟩ := h
  rw [List.find?_map, Option.map_eq_some_iff] at hfind
  obtain ⟨⟨a, x⟩, hfind, rfl⟩ := hfind
  obtain ⟨hp, before, after, rfl, hbefore⟩ := List.find?_eq_some_iff_append.1 hfind
  refine ⟨a, (hmem a x).1 (by simp), hp, fun b y hb hy => ?_⟩
  obtain ⟨-, hafter, -⟩ := List.pairwise_append.1 hsorted
  rcases List.mem_append.1 ((hmem b y).2 hb) with hb | hb
  · have hnot := hbefore _ hb
    simp [hy] at hnot
  · rcases List.mem_cons.1 hb with hb | hb
    · exact .inl (Prod.mk.inj hb).1.symm
    · exact .inr ((List.pairwise_cons.1 hafter).1 _ hb)

/-- A search of the list fails if it would fail everywhere. -/
theorem find?_eq_none (h : ListedBy P xs) : xs.find? p = none ↔ ∀ a x, P a x → p x = false := by
  obtain ⟨sites, -, hmem, rfl⟩ := h
  simp [← hmem]

/-- A search of the list gives what stands first among all that would be found. -/
theorem find?_eq_some (h : ListedBy P xs) : xs.find? p = some x ↔
    ∃ a, P a x ∧ p x = true ∧ ∀ b y, P b y → p y = true → a = b ∨ Precedes a b := by
  refine ⟨h.first_of_find?, ?_⟩
  rintro ⟨a, ha, hp, hfirst⟩
  cases hfind : xs.find? p with
  | none => simp [h.find?_eq_none.1 hfind a x ha] at hp
  | some y =>
    obtain ⟨b, hb, hy, hfirst'⟩ := h.first_of_find? hfind
    obtain rfl : a = b := Precedes.antisymm (hfirst b y hb hy) (hfirst' a x ha hp)
    rw [h.unique hb ha]

end Search

end ListedBy

/-! ## The nodes of a tree -/

namespace Syntax.Node

/-- What holds of a node if it holds of its children holds of every node. -/
@[elab_as_elim]
theorem induction {motive : Node → Prop}
    (mk : ∀ k l e m cs, (∀ c ∈ cs, motive c) → motive (.mk k l e m cs)) (n : Node) : motive n := by
  obtain ⟨k, l, e, m, cs⟩ := n
  exact mk k l e m cs fun c hc => induction mk c
termination_by n
decreasing_by exact sizeOf_lt_of_mem_children hc

/-- The node at an address. -/
def at? : Node → Address → Option Node
  | n, [] => some n
  | n, i :: a => n.children[i]?.bind fun c => c.at? a

/-- An address leads first to a child and from there on. -/
theorem at?_cons {n c : Node} {i : Nat} {a : Address} :
    n.at? (i :: a) = some c ↔ ∃ d, n.children[i]? = some d ∧ d.at? a = some c := Option.bind_eq_some_iff

/-- The nodes below a child have the addresses that begin with its number. -/
theorem exists_at?_cons {n c : Node} (hc : c ∈ n.children) : ∃ i, ∀ a, n.at? (i :: a) = c.at? a := by
  obtain ⟨i, hi⟩ := List.mem_iff_getElem?.1 hc
  exact ⟨i, fun a => by rw [at?, hi, Option.bind_some]⟩

mutual

/-- A node and the nodes below it, in preorder. -/
def preorder : Node → List Node
  | mk k l e m cs => mk k l e m cs :: preorderAll cs

def preorderAll : List Node → List Node
  | [] => []
  | n :: ns => n.preorder ++ preorderAll ns

end

theorem preorderAll_eq (ns : List Node) : preorderAll ns = ns.flatMap preorder := by
  induction ns with
  | nil => rfl
  | cons n ns ih => rw [preorderAll, ih, List.flatMap_cons]

/-- A node comes before what stands below it. -/
theorem preorder_mk (k : Kind) (l : Option Label) (e : Extent) (m : Bool) (cs : List Node) :
    (mk k l e m cs).preorder = mk k l e m cs :: cs.flatMap preorder := by
  rw [preorder, preorderAll_eq]

/-- A tree lists its nodes. -/
theorem listedBy_preorder (n : Node) : ListedBy (fun a c => n.at? a = some c) n.preorder := by
  induction n using Node.induction with
  | mk k l e m cs ih =>
    rw [preorder_mk]
    refine ((ListedBy.below cs ih).cons (by simp) _).congr fun a c => ?_
    cases a with
    | nil => simp [at?, eq_comm]
    | cons i a =>
      rw [at?_cons]
      constructor
      · rintro (⟨hnil, -⟩ | ⟨i, d, a, ha, hd, hc⟩)
        · cases hnil
        · cases ha
          exact ⟨d, hd, hc⟩
      · rintro ⟨d, hd, hc⟩
        exact .inr ⟨i, d, a, rfl, hd, hc⟩

end Syntax.Node

end ModuleMock
