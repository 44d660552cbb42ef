import Mathlib.Data.List.Perm.Basic
import ModuleMock.Proofs.Declaration.Bindings
import ModuleMock.Proofs.Surface.Placement
import ModuleMock.Surface.Modules

/-!
# Statements in another order

The order of the statements of a module matters only where two of them declare one name, and among export statements.
`Reordering` moves statements that share no name with any other and keeps the rest in order; names then have the same
last declarations (`Reordering.lookup_eq`), and the module exports the same (`surface_reordered`).
-/

namespace ModuleMock

open Syntax OrderedMap

/-! ## Lists of bindings in blocks -/

section Blocks

variable {α β : Type} (f : β → List (String × α)) {x : String}

/-- Blocks that do not write a name can be left out when it is looked up. -/
theorem lookup_flatMap_filter (keep : β → Bool) : ∀ blocks : List β,
    (∀ b ∈ blocks, keep b = false → x ∉ keys (f b)) →
    (blocks.flatMap f).reverse.lookup x = ((blocks.filter keep).flatMap f).reverse.lookup x
  | [], _ => rfl
  | b :: blocks, h => by
    have ih := lookup_flatMap_filter keep blocks fun c hc => h c (List.mem_cons_of_mem b hc)
    rw [List.flatMap_cons, lookup_reverse_append, ih]
    cases hb : keep b with
    | true => rw [List.filter_cons_of_pos hb, List.flatMap_cons, lookup_reverse_append]
    | false =>
      rw [List.filter_cons_of_neg (by simp [hb]), lookup_reverse_eq_none (h b List.mem_cons_self hb), Option.or_none]

end Blocks

/-- A list that holds an element, but in no pair of its places, has one place only. -/
theorem eq_singleton_of_pairwise {α : Type} {a : α} : ∀ {l : List α}, a ∈ l → l.Pairwise (fun b c => b ≠ a ∧ c ≠ a) →
    l = [a]
  | b :: l, ha, h => by
    obtain ⟨hb, -⟩ := List.pairwise_cons.1 h
    rcases List.mem_cons.1 ha with rfl | ha
    · cases l with
      | nil => rfl
      | cons c l => exact absurd rfl (hb c List.mem_cons_self).1
    · exact absurd rfl (hb a ha).2

/-! ## Reorderings -/

/-- Two orders of one list of statements, of which some are marked as moved. The others keep their order, the export
statements among them, and a moved statement declares no name that another one declares. -/
structure Reordering (before after : List (Bool × Node)) : Prop where
  perm : before.Perm after
  fixed : before.filter (!·.1) = after.filter (!·.1)
  no_export : ∀ p ∈ before, p.1 = true → p.2.isForm .exportStatement = false
  apart : before.Pairwise fun p q => p.1 = true ∨ q.1 = true → ∀ x ∈ keys (bindings p.2), x ∉ keys (bindings q.2)

instance (before after : List (Bool × Node)) : Decidable (Reordering before after) :=
  decidable_of_iff (before.Perm after ∧ before.filter (!·.1) = after.filter (!·.1) ∧
    (∀ p ∈ before, p.1 = true → p.2.isForm .exportStatement = false) ∧
    before.Pairwise fun p q => p.1 = true ∨ q.1 = true → ∀ x ∈ keys (bindings p.2), x ∉ keys (bindings q.2))
    ⟨fun ⟨h₁, h₂, h₃, h₄⟩ => ⟨h₁, h₂, h₃, h₄⟩, fun h => ⟨h.perm, h.fixed, h.no_export, h.apart⟩⟩

namespace Reordering

variable {before after : List (Bool × Node)}

/-- Names have the same last declarations in both orders. -/
theorem lookup_eq (h : Reordering before after) (x : String) :
    (before.flatMap (bindings ·.2)).reverse.lookup x = (after.flatMap (bindings ·.2)).reverse.lookup x := by
  by_cases hmoved : ∃ p ∈ before, p.1 = true ∧ x ∈ keys (bindings p.2)
  · -- a moved statement declares the name, and so no other one does
    obtain ⟨p, hp, hmark, hx⟩ := hmoved
    let writes : Bool × Node → Bool := fun q => decide (x ∈ keys (bindings q.2))
    have honly : before.filter writes = [p] := by
      refine eq_singleton_of_pairwise (List.mem_filter.2 ⟨hp, by simpa [writes] using hx⟩) ?_
      refine (h.apart.filter writes).imp_of_mem ?_
      intro q r hq hr happart
      have hxq : x ∈ keys (bindings q.2) := by simpa [writes] using (List.mem_filter.1 hq).2
      have hxr : x ∈ keys (bindings r.2) := by simpa [writes] using (List.mem_filter.1 hr).2
      constructor
      · rintro rfl
        exact happart (.inl hmark) x hxq hxr
      · rintro rfl
        exact happart (.inr hmark) x hxq hxr
    have honly' : after.filter writes = [p] := by
      have hperm := h.perm.filter writes
      rw [honly] at hperm
      exact List.perm_singleton.1 hperm.symm
    have hkeep : ∀ q : Bool × Node, writes q = false → x ∉ keys (bindings q.2) := by simp [writes]
    rw [lookup_flatMap_filter _ writes before fun q _ => hkeep q,
      lookup_flatMap_filter _ writes after fun q _ => hkeep q, honly, honly']
  · -- only statements that stay declare the name
    have hfree : ∀ p ∈ before, (!p.1) = false → x ∉ keys (bindings p.2) := fun p hp hmark hx =>
      hmoved ⟨p, hp, by simpa using hmark, hx⟩
    rw [lookup_flatMap_filter _ (!·.1) before hfree,
      lookup_flatMap_filter _ (!·.1) after fun p hp => hfree p (h.perm.mem_iff.2 hp), h.fixed]

/-- A reordering keeps the export statements in their order. -/
theorem exports_eq (h : Reordering before after) :
    (before.map Prod.snd).filter (·.isForm .exportStatement) =
      (after.map Prod.snd).filter (·.isForm .exportStatement) := by
  have hstay : ∀ ps : List (Bool × Node), (∀ p ∈ ps, p.1 = true → p.2.isForm .exportStatement = false) →
      ps.filter (fun p => p.2.isForm .exportStatement) =
        (ps.filter (!·.1)).filter fun p => p.2.isForm .exportStatement := by
    intro ps hps
    rw [List.filter_filter]
    refine List.filter_congr fun p hp => ?_
    cases hmark : p.1 with
    | true => rw [hps p hp hmark]; rfl
    | false => simp
  simp only [List.filter_map, Function.comp_def]
  rw [hstay before h.no_export, hstay after fun p hp => h.no_export p (h.perm.mem_iff.2 hp), h.fixed]

end Reordering

/-- The statements of the second module are those of the first in another order, and in other places. -/
def Reordered (root root' : Node) : Prop :=
  IsRoot root ∧ IsRoot root' ∧
    ∃ before after, before.map Prod.snd = root.children.map Node.unplaced ∧
      after.map Prod.snd = root'.children.map Node.unplaced ∧ Reordering before after

/-! ## Exports -/

/-- Tables read alike when their names have the same last declarations, up to places. -/
theorem alike_ofTree {root root' : Node} (link : String → Option Surface)
    (h : ∀ x, (bindings root').reverse.lookup x = (bindings root.unplaced).reverse.lookup x) :
    Scope.Alike ⟨DeclarationTable.ofTree root, link⟩ ⟨DeclarationTable.ofTree root', link⟩ where
  length_eq := by
    refine length_ofTree_congr fun x => ?_
    have hx := congrArg (· = none) (h x)
    simp only [lookup_reverse_eq_none_iff, eq_iff_iff, not_iff_not, bindings_unplaced, keys_map_snd] at hx
    exact hx
  lookup_eq x := by
    rw [lookup_ofTree, lookup_ofTree, h, bindings_unplaced, ← List.map_reverse, lookup_map_snd]
  link_eq := rfl

/-- Export statements are found in the same way without places. -/
theorem exportStatements_unplaced (root : Node) :
    ModuleView.exportStatements root.unplaced = (ModuleView.exportStatements root).map Node.unplaced := by
  simp [ModuleView.exportStatements, List.filter_map, Function.comp_def]

/-- The exports of two surfaces are the same: the named ones with their order, and the default one. -/
def Surface.SameExports (s s' : Surface) : Prop := s.named = s'.named ∧ s.default? = s'.default?

namespace Reordered

variable {root root' : Node}

/-- A reordering binds each name to the same declaration, its place aside. -/
theorem lookup_bindings (h : Reordered root root') (x : String) :
    (bindings root.unplaced).reverse.lookup x = (bindings root'.unplaced).reverse.lookup x := by
  obtain ⟨hroot, hroot', before, after, hbefore, hafter, hr⟩ := h
  have hblocks : ∀ (n : Node) (ps : List (Bool × Node)), IsRoot n →
      ps.map Prod.snd = n.children.map Node.unplaced → bindings n.unplaced = ps.flatMap (bindings ·.2) := by
    intro n ps hn hps
    have hn' : IsRoot n.unplaced := by rwa [IsRoot, Node.isForm_unplaced, Node.isForm_unplaced]
    rw [bindings_of_isRoot hn', Node.children_unplaced, ← hps, List.flatMap_map]
  rw [hblocks root before hroot hbefore, hblocks root' after hroot' hafter, hr.lookup_eq]

/-- A reordering has the same export statements, their places aside. -/
theorem exportStatements_eq (h : Reordered root root') :
    ModuleView.exportStatements root.unplaced = ModuleView.exportStatements root'.unplaced := by
  obtain ⟨-, -, before, after, hbefore, hafter, hr⟩ := h
  rw [ModuleView.exportStatements, ModuleView.exportStatements, Node.children_unplaced, Node.children_unplaced,
    ← hbefore, ← hafter]
  exact hr.exports_eq

/-- Both modules export what the first one does when places are forgotten. -/
theorem sameExports (h : Reordered root root') (path : String) (link : String → Option Surface) :
    (Surface.ofTree path root link).SameExports (Surface.ofTree path root' link) := by
  let view (n : Node) : ModuleView := ⟨⟨DeclarationTable.ofTree n, link⟩, path⟩
  have halike : (view root).toScope.Alike (view root.unplaced).toScope := alike_ofTree link fun _ => rfl
  have halike' : (view root').toScope.Alike (view root.unplaced).toScope := alike_ofTree link h.lookup_bindings
  have hfirst := ModuleView.surface_alike halike (exportStatements_unplaced root)
  have hsecond := ModuleView.surface_alike halike' (h.exportStatements_eq.trans (exportStatements_unplaced root'))
  exact ⟨hfirst.1.symm.trans hsecond.1, hfirst.2.symm.trans hsecond.2⟩

end Reordered

/-- **The order of declarations does not matter.** A module whose statements are reordered, so that export statements
keep their order and a moved statement shares no declared name with any other, exports the same under the same names in
the same order and has the same default export: whatever surfaces its specifiers lead to, and as a file of any file
tree. -/
theorem surface_reordered {root root' : Node} (h : Reordered root root') :
    (∀ path link, (Surface.ofTree path root link).SameExports (Surface.ofTree path root' link)) ∧
    ∀ (w : Workspace) (ancestors : List Location) (path text text' : String),
      Script.parse (dialectOf path) text = root → Script.parse (dialectOf path) text' = root' →
      (Modules.surface w ancestors path text).SameExports (Modules.surface w ancestors path text') := by
  refine ⟨h.sameExports, ?_⟩
  rintro w ancestors path text text' rfl rfl
  exact h.sameExports path _

/-- Every parse gives a root. -/
theorem isRoot_parse (dialect : Script.Dialect) (text : String) : IsRoot (Script.parse dialect text) := by
  unfold Script.parse
  dsimp only
  split
  · exact .inl rfl
  · split
    · exact .inl rfl
    · exact .inr rfl

/-- The statements of a module, of which all but the exports are moved. -/
def allMoved (root : Node) : List (Bool × Node) := root.children.map fun n => (!n.isForm .exportStatement, n.unplaced)

theorem map_snd_allMoved (root : Node) : (allMoved root).map Prod.snd = root.children.map Node.unplaced := by
  simp [allMoved]

/-- A list that is exported before the name in it is declared, and an import at the end. -/
def scattered : String := "let a = [b]\nexport \x7b a, x \x7d\nlet b = 1\nexport default a\nimport x from './x'"

/-- The same module with its declarations moved. -/
def gathered : String := "import x from './x'\nlet b = 1\nexport \x7b a, x \x7d\nexport default a\nlet a = [b]"

/-- The module that both import. -/
def besideReordered : Workspace where
  tree := ⟨[(["x.ts"], .file (Text.encode "export default \x7b p: 1 \x7d"))]⟩
  cwd := []

theorem surface_reordered_scattered :
    Reordered (Script.parse .plain scattered) (Script.parse .plain gathered) ∧
    (Modules.surface besideReordered [] "main.ts" scattered).SameExports
      (Modules.surface besideReordered [] "main.ts" gathered) := by
  have hr : Reordering (allMoved (Script.parse .plain scattered)) (allMoved (Script.parse .plain gathered)) := by
    decide +kernel
  have h : Reordered (Script.parse .plain scattered) (Script.parse .plain gathered) :=
    ⟨isRoot_parse _ _, isRoot_parse _ _, _, _, map_snd_allMoved _, map_snd_allMoved _, hr⟩
  exact ⟨h, (surface_reordered h).2 besideReordered [] "main.ts" scattered gathered rfl rfl⟩

end ModuleMock
