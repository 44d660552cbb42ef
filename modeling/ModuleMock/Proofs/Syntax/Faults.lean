import ModuleMock.Proofs.Syntax.Preorder

/-!
# The search for the first fault

The search enters only such children as are flagged. Where every node is flagged exactly if a fault stands at it or below
it (`FlagsFaults`), what is left out has no fault, and the search gives what looking through all nodes in preorder gives
(`searchFault?_eq_find?`, with one lemma for the children of a node, `searchFaultOf?_eq_find?`). `hasFault` is such a flag
(`flagsFaults_hasFault`).
-/

namespace ModuleMock.Syntax

/-! ## Trees without faults -/

theorem hasFaultAny_eq_false (cs : List Node) : Node.hasFaultAny cs = false ↔ ∀ c ∈ cs, c.hasFault = false := by
  induction cs with
  | nil => simp [Node.hasFaultAny]
  | cons c cs ih => simp [Node.hasFaultAny, ih]

/-- A tree has no fault if its root is none and no child has one. -/
theorem hasFault_eq_false {k : Kind} {l : Option Label} {e : Extent} {m : Bool} {cs : List Node} :
    (Node.mk k l e m cs).hasFault = false ↔ k ≠ .form .error ∧ m = false ∧ ∀ c ∈ cs, c.hasFault = false := by
  simp [Node.hasFault, hasFaultAny_eq_false, and_assoc]

namespace Node

variable {flagged : Node → Bool} {root n c : Node}

/-- No node of the tree is a fault. -/
def Faultless (root : Node) : Prop := ∀ a n, root.at? a = some n → n.isFault = false

/-- Being without faults, by children. -/
theorem faultless_iff : n.Faultless ↔ n.isFault = false ∧ ∀ c ∈ n.children, c.Faultless := by
  constructor
  · intro h
    refine ⟨h [] n rfl, fun c hc a d hd => ?_⟩
    obtain ⟨i, hi⟩ := exists_at?_cons hc
    exact h (i :: a) d ((hi a).trans hd)
  · rintro ⟨hself, hchildren⟩ a d hd
    cases a with
    | nil =>
      cases hd
      exact hself
    | cons i a =>
      obtain ⟨c, hc, hd⟩ := at?_cons.1 hd
      exact hchildren c (List.mem_of_getElem? hc) a d hd

/-- The test for faults finds them at every address. -/
theorem hasFault_eq_false_iff (n : Node) : n.hasFault = false ↔ n.Faultless := by
  induction n using Node.induction with
  | mk k l e m cs ih =>
    have hself : (mk k l e m cs).isFault = false ↔ k ≠ .form .error ∧ m = false := by
      simp [isFault, isForm, kind, isMissing]
    rw [hasFault_eq_false, faultless_iff, hself, and_assoc]
    exact and_congr_right fun _ => and_congr_right fun _ => forall₂_congr ih

/-- Preorder meets no fault exactly if there is none. -/
theorem find?_preorder_eq_none : n.preorder.find? isFault = none ↔ n.Faultless := n.listedBy_preorder.find?_eq_none

/-! ## Flags -/

/-- Every node of a tree is flagged exactly if a fault stands at it or below it. -/
def FlagsFaults (flagged : Node → Bool) (root : Node) : Prop :=
  ∀ a n, root.at? a = some n → (flagged n = true ↔ ∃ b c, n.at? b = some c ∧ c.isFault = true)

/-- Flags that cover the faults below a node cover those below its children. -/
theorem FlagsFaults.child (h : FlagsFaults flagged n) (hc : c ∈ n.children) : FlagsFaults flagged c := by
  intro a d hd
  obtain ⟨i, hi⟩ := exists_at?_cons hc
  exact h (i :: a) d ((hi a).trans hd)

/-- Where no flag stands there is no fault to look for. -/
theorem FlagsFaults.faultless (h : FlagsFaults flagged n) (hn : flagged n = false) : n.Faultless := by
  intro a c hc
  refine Bool.eq_false_iff.2 fun hfault => ?_
  have := (h [] n rfl).2 ⟨a, c, hc, hfault⟩
  simp [hn] at this

/-- The test for faults is a flag that covers them all. -/
theorem flagsFaults_hasFault (root : Node) : FlagsFaults hasFault root := by
  intro a n _
  rw [← Bool.not_eq_false, hasFault_eq_false_iff, Faultless]
  simp

/-! ## The search -/

/-- The children of a node are searched one after the other; those that are not entered have no fault. -/
theorem searchFaultOf?_eq_find? (cs : List Node) (hflags : ∀ c ∈ cs, FlagsFaults flagged c)
    (hsearch : ∀ c ∈ cs, c.searchFault? flagged = c.preorder.find? isFault) :
    searchFaultOf? flagged cs = (cs.flatMap preorder).find? isFault := by
  induction cs with
  | nil => rfl
  | cons c cs ih =>
    have hrest := ih (fun d hd => hflags d (List.mem_cons_of_mem c hd)) fun d hd => hsearch d (List.mem_cons_of_mem c hd)
    rw [searchFaultOf?, hrest, hsearch c List.mem_cons_self, List.flatMap_cons, List.find?_append]
    split
    · exact Option.orElse_eq_or
    · rename_i hskip
      -- the child is not flagged, so a search through all nodes finds nothing in it either
      have hc : flagged c = false ∧ c.isMissing = false := by simpa using hskip
      have hnone := find?_preorder_eq_none.2 ((hflags c List.mem_cons_self).faultless hc.1)
      rw [hnone, Option.none_or]

/-- The search passes by subtrees without a flag, and still finds what preorder meets first. -/
theorem searchFault?_eq_find? (n : Node) (h : FlagsFaults flagged n) :
    n.searchFault? flagged = n.preorder.find? isFault := by
  induction n using Node.induction with
  | mk k l e m cs ih =>
    -- what the flags say of the tree they say of each child
    have hchildren := searchFaultOf?_eq_find? cs (fun c hc => h.child hc) fun c hc => ih c hc (h.child hc)
    rw [searchFault?, hchildren, preorder_mk, List.find?_cons]
    cases hself : (mk k l e m cs).isFault with
    | true => exact if_pos hself
    | false => exact if_neg (Bool.eq_false_iff.1 hself)

/-- The search from the root finds what preorder meets first. -/
theorem flaggedFault?_eq_find? (h : FlagsFaults flagged root) :
    root.flaggedFault? flagged = root.preorder.find? isFault := by
  unfold flaggedFault?
  split
  · exact searchFault?_eq_find? root h
  · rename_i hroot
    have hnone := find?_preorder_eq_none.2 (h.faultless (Bool.eq_false_iff.2 hroot))
    exact hnone.symm

/-- The first fault is the one that preorder meets first. -/
theorem firstFault?_eq_find? (root : Node) : root.firstFault? = root.preorder.find? isFault :=
  flaggedFault?_eq_find? (flagsFaults_hasFault root)

/-- The first fault is found wherever there is one. -/
theorem isSome_firstFault? (n : Node) : n.firstFault?.isSome = n.hasFault := by
  rw [Bool.eq_iff_iff, ← Bool.not_eq_false n.hasFault, hasFault_eq_false_iff, ← find?_preorder_eq_none,
    firstFault?_eq_find?, Option.isSome_iff_ne_none]

/-! ## What is found -/

/-- A fault stands at an address, and every other fault comes after it in preorder. -/
structure FirstFault (root : Node) (a : Address) (fault : Node) : Prop where
  stands : root.at? a = some fault
  isFault : fault.isFault = true
  first : ∀ b n, root.at? b = some n → n.isFault = true → a = b ∨ Precedes a b

/-- What preorder meets first is the fault that no other precedes. -/
theorem find?_preorder_eq_some {fault : Node} :
    root.preorder.find? Node.isFault = some fault ↔ ∃ a, FirstFault root a fault := by
  rw [root.listedBy_preorder.find?_eq_some]
  constructor
  · rintro ⟨a, hstands, hfault, hfirst⟩
    exact ⟨a, hstands, hfault, hfirst⟩
  · rintro ⟨a, hstands, hfault, hfirst⟩
    exact ⟨a, hstands, hfault, hfirst⟩

end Node

end ModuleMock.Syntax
