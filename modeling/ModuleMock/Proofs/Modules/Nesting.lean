import Mathlib.Data.Finset.Card
import Mathlib.Data.List.Chain
import ModuleMock.Proofs.FileTree.Reading
import ModuleMock.Proofs.Surface.Demand

/-!
# Nested modules

A `Visit` is a module under analysis, with the modules whose analysis has led to it. Asking for a specifier leads from
a visit to the next one (`Visit.next?`), at a file that is not on the chain yet (`next?_cases`). So the number of files
off the chain goes down (`room_lt`), and

- the keys of nested modules are distinct files (`nodup_of_chain`, `mem_files_of_chain`);
- a budget as large as that number gives the same answer as any larger one (`surfaceWithin_of_room_le`), and the
  surface is what its modules say without any budget (`surface_unfold`);
- evaluation as the statements demand it ends, with that surface (`evaluates_iff`).
-/

namespace ModuleMock.Modules

open Syntax

/-! ## Searching -/

/-- Does a path open as a file with text? -/
def Readable (w : Workspace) (path : String) : Prop := ∃ text, w.tree.readText w.cwd path = .ok text

instance (w : Workspace) (path : String) : Decidable (Readable w path) :=
  match h : w.tree.readText w.cwd path with
  | .ok text => isTrue ⟨text, h⟩
  | .error _ => isFalse fun ⟨_, h'⟩ => by rw [h] at h'; cases h'

theorem Search.found?_eq_some {s : Search} {c : Path} {text : String} :
    s.found? = some (c, text) ↔ s = .found c text := by
  cases s <;> simp [Search.found?]

section Searching

variable {w : Workspace} {ancestors : List Location}

/-- A search ends at the first candidate that can be read, if none up to it is being analysed. -/
theorem search_eq_found {c : Path} {text : String} : ∀ {cs : List Path}, search w ancestors cs = .found c text ↔
    ∃ before after, cs = before ++ c :: after ∧
      (∀ b ∈ before, key w b.toString ∉ ancestors ∧ ¬ Readable w b.toString) ∧
      key w c.toString ∉ ancestors ∧ w.tree.readText w.cwd c.toString = .ok text
  | [] => by simp [search]
  | d :: cs => by
    unfold search
    by_cases hk : key w d.toString ∈ ancestors
    · rw [if_pos hk]
      constructor
      · intro h; cases h
      · rintro ⟨_ | ⟨b, before⟩, after, he, hb, hc, -⟩
        · obtain ⟨rfl, -⟩ := List.cons.inj he; exact absurd hk hc
        · obtain ⟨rfl, -⟩ := List.cons.inj he; exact absurd hk (hb d List.mem_cons_self).1
    · rw [if_neg hk]
      cases hr : w.tree.readText w.cwd d.toString with
      | ok text' =>
        constructor
        · intro h
          cases h
          exact ⟨[], cs, rfl, by simp, hk, hr⟩
        · rintro ⟨_ | ⟨b, before⟩, after, he, hb, hc, ht⟩
          · obtain ⟨rfl, -⟩ := List.cons.inj he
            rw [hr] at ht
            cases ht
            rfl
          · obtain ⟨rfl, -⟩ := List.cons.inj he
            exact absurd ⟨text', hr⟩ (hb d List.mem_cons_self).2
      | error fault =>
        have hd : ¬ Readable w d.toString := by
          rintro ⟨_, h⟩
          rw [hr] at h
          cases h
        dsimp only
        rw [search_eq_found]
        constructor
        · rintro ⟨before, after, rfl, hb, hc, ht⟩
          refine ⟨d :: before, after, rfl, ?_, hc, ht⟩
          intro b hm
          rcases List.mem_cons.1 hm with rfl | hm
          · exact ⟨hk, hd⟩
          · exact hb b hm
        · rintro ⟨_ | ⟨b, before⟩, after, he, hb, hc, ht⟩
          · obtain ⟨rfl, -⟩ := List.cons.inj he
            exact absurd ⟨text, ht⟩ hd
          · obtain ⟨rfl, rfl⟩ := List.cons.inj he
            exact ⟨before, after, rfl, fun b hm => hb b (List.mem_cons_of_mem _ hm), hc, ht⟩

end Searching

/-! ## Visits -/

/-- A module under analysis: its path, its text, and the keys of the modules that have led to it, the last one first. -/
structure Visit where
  ancestors : List Location
  path : String
  text : String
deriving DecidableEq

namespace Visit

/-- A module that no other one has led to. -/
def entry (path text : String) : Visit := ⟨[], path, text⟩

def root (v : Visit) : Node := Script.parse (dialectOf v.path) v.text

variable (w : Workspace)

/-- The keys of the modules under analysis, the module itself included. -/
def inside (v : Visit) : List Location := key w v.path :: v.ancestors

/-- The module that a specifier leads to. -/
def next? (v : Visit) (specifier : String) : Option Visit :=
  (search w (v.inside w) (candidates w.cwd v.path specifier)).found?.map fun m => ⟨v.inside w, m.1.toString, m.2⟩

/-- The surface of a module, with a budget and without. -/
def surfaceWithin (budget : Nat) (v : Visit) : Surface := Modules.surfaceWithin w budget v.ancestors v.path v.text

def surface (v : Visit) : Surface := Modules.surface w v.ancestors v.path v.text

/-- The module seen with the given surfaces behind its specifiers. -/
def view (v : Visit) (link : String → Option Surface) : ModuleView :=
  ⟨⟨DeclarationTable.ofTree v.root, link⟩, v.path⟩

@[simp] theorem root_entry (v : Visit) : (entry v.path v.text).root = v.root := rfl

@[simp] theorem view_link (v : Visit) (link : String → Option Surface) : (v.view link).link = link := rfl

/-- The module seen with the surfaces that its specifiers lead to. -/
def linked (v : Visit) : ModuleView := v.view fun specifier => (v.next? w specifier).map (surface w)

/-- How many files are not under analysis. -/
def room (v : Visit) : Nat := (w.tree.files.filter (· ∉ v.inside w)).card

variable {w} {v v' : Visit}

/-- A specifier leads to a file that is not under analysis. -/
theorem next?_cases {specifier : String} (h : v.next? w specifier = some v') :
    v'.ancestors = v.inside w ∧ key w v'.path ∉ v.inside w ∧ key w v'.path ∈ w.tree.files ∧
      w.tree.readText w.cwd v'.path = .ok v'.text := by
  obtain ⟨⟨c, text⟩, hm, rfl⟩ := Option.map_eq_some_iff.1 h
  obtain ⟨_, _, -, -, hk, ht⟩ := search_eq_found.1 (Search.found?_eq_some.1 hm)
  exact ⟨rfl, hk, FileTree.resolve_mem_files ht, ht⟩

/-- Each module that is entered leaves less room. -/
theorem room_lt {specifier : String} (h : v.next? w specifier = some v') : v'.room w < v.room w := by
  obtain ⟨ha, hk, hf, -⟩ := next?_cases h
  apply Finset.card_lt_card
  refine ⟨fun l hl => ?_, fun hsub => ?_⟩
  · rw [Finset.mem_filter] at hl ⊢
    refine ⟨hl.1, fun hm => hl.2 ?_⟩
    unfold inside
    rw [ha]
    exact List.mem_cons_of_mem _ hm
  · have := hsub (Finset.mem_filter.2 ⟨hf, hk⟩)
    exact (Finset.mem_filter.1 this).2 List.mem_cons_self

/-- There is never more room than files. -/
theorem room_le (w : Workspace) (v : Visit) : v.room w ≤ w.tree.files.card := Finset.card_filter_le _ _

/-! ## Budgets -/

theorem surfaceWithin_zero (v : Visit) : v.surfaceWithin w 0 = (v.view fun _ => none).surface v.root := rfl

/-- A surface with one more level: the modules it names have theirs with one less. -/
theorem surfaceWithin_succ (budget : Nat) (v : Visit) : v.surfaceWithin w (budget + 1) =
    (v.view fun specifier => (v.next? w specifier).map (surfaceWithin w budget)).surface v.root := by
  show Modules.surfaceWithin w (budget + 1) v.ancestors v.path v.text = Surface.ofTree v.path v.root _
  rw [Modules.surfaceWithin]
  simp only [next?, surfaceWithin, inside, root, Option.map_map, Function.comp_def]

/-- A budget for all files off the chain is enough. -/
theorem surfaceWithin_succ_of_room_le : ∀ {budget : Nat} {v : Visit}, v.room w ≤ budget →
    v.surfaceWithin w (budget + 1) = v.surfaceWithin w budget
  | 0, v, h => by
    rw [surfaceWithin_succ, surfaceWithin_zero]
    have hnone : (fun specifier => (v.next? w specifier).map (surfaceWithin w 0)) = fun _ => none := by
      funext specifier
      cases hn : v.next? w specifier with
      | none => rfl
      | some v' => exact absurd (room_lt hn) (by omega)
    rw [hnone]
  | budget + 1, v, h => by
    rw [surfaceWithin_succ, surfaceWithin_succ budget]
    have hsame : (fun specifier => (v.next? w specifier).map (surfaceWithin w (budget + 1))) =
        fun specifier => (v.next? w specifier).map (surfaceWithin w budget) := by
      funext specifier
      cases hn : v.next? w specifier with
      | none => rfl
      | some v' =>
        have := room_lt hn
        simp only [Option.map_some]
        rw [surfaceWithin_succ_of_room_le (by omega)]
    rw [hsame]

/-- Every budget of at least the room gives the same surface. -/
theorem surfaceWithin_of_room_le {budget : Nat} (h : v.room w ≤ budget) :
    v.surfaceWithin w budget = v.surfaceWithin w (v.room w) := by
  induction budget, h using Nat.le_induction with
  | base => rfl
  | succ n hn ih => rw [surfaceWithin_succ_of_room_le hn, ih]

/-- The surface is the one with any budget of at least the number of files. -/
theorem surface_eq_surfaceWithin {budget : Nat} (h : w.tree.files.card ≤ budget) :
    v.surface w = v.surfaceWithin w budget := by
  have hroom := room_le w v
  have hcard := w.tree.card_files_le
  have hb : v.room w ≤ Modules.budget w := by unfold Modules.budget; omega
  rw [show v.surface w = v.surfaceWithin w (Modules.budget w) from rfl, surfaceWithin_of_room_le hb,
    surfaceWithin_of_room_le (by omega : v.room w ≤ budget)]

/-- The surface of a module in terms of the surfaces that its specifiers lead to. -/
theorem surface_unfold (w : Workspace) (v : Visit) : v.surface w = (v.linked w).surface v.root := by
  rw [surface_eq_surfaceWithin (Nat.le_succ w.tree.files.card), surfaceWithin_succ, linked]
  have hsame : surfaceWithin w w.tree.files.card = surface w := by
    funext v'
    exact (surface_eq_surfaceWithin (Nat.le_refl _)).symm
  rw [hsame]

/-! ## Chains -/

/-- One module leads to another, by whatever specifier. -/
def Enters (w : Workspace) (v v' : Visit) : Prop := ∃ specifier, v.next? w specifier = some v'

/-- Entering a module keeps the keys under analysis distinct. -/
theorem Enters.nodup_inside (h : Enters w v v') (hv : (v.inside w).Nodup) : (v'.inside w).Nodup := by
  obtain ⟨specifier, hn⟩ := h
  obtain ⟨ha, hk, -, -⟩ := next?_cases hn
  unfold inside
  rw [ha]
  exact List.nodup_cons.2 ⟨hk, hv⟩

/-- At the end of a chain, the keys of all its modules are under analysis. -/
theorem inside_of_chain : ∀ {nested : List Visit} {v last : Visit}, List.IsChain (Enters w) (v :: nested) →
    (v :: nested).getLast? = some last →
    last.inside w = (nested.map fun v => key w v.path).reverse ++ v.inside w
  | [], v, last, _, hl => by
    obtain rfl : v = last := by simpa using hl
    rfl
  | v' :: nested, v, last, hc, hl => by
    obtain ⟨⟨specifier, hn⟩, hc⟩ := List.isChain_cons_cons.1 hc
    rw [List.getLast?_cons_cons] at hl
    rw [inside_of_chain hc hl]
    unfold inside
    rw [(next?_cases hn).1]
    simp [inside]

/-- No module is entered twice along a chain. -/
theorem nodup_of_chain : ∀ {nested : List Visit} {v : Visit}, List.IsChain (Enters w) (v :: nested) →
    (v.inside w).Nodup → ((nested.map fun v => key w v.path).reverse ++ v.inside w).Nodup
  | [], v, _, hv => hv
  | v' :: nested, v, hc, hv => by
    obtain ⟨he, hc⟩ := List.isChain_cons_cons.1 hc
    have ih := nodup_of_chain hc (he.nodup_inside hv)
    obtain ⟨specifier, hn⟩ := he
    unfold inside at ih
    rw [(next?_cases hn).1] at ih
    simpa using ih

/-- Every module that is entered is a file. -/
theorem mem_files_of_chain : ∀ {nested : List Visit} {v : Visit}, List.IsChain (Enters w) (v :: nested) →
    ∀ v' ∈ nested, key w v'.path ∈ w.tree.files
  | [], v, _, v', h => by cases h
  | n :: nested, v, hc, v', h => by
    obtain ⟨⟨specifier, hn⟩, hc⟩ := List.isChain_cons_cons.1 hc
    rcases List.mem_cons.1 h with rfl | h
    · exact (next?_cases hn).2.2.1
    · exact mem_files_of_chain hc v' h

/-! ## Evaluation on demand -/

/-- Evaluation without a budget: a module has a surface if each module that its statements ask for has one. -/
inductive Evaluates (w : Workspace) : Visit → Surface → Prop
  | intro (v : Visit) (target : String → Surface)
      (asked : ∀ q ∈ (v.view fun specifier => (v.next? w specifier).map fun _ => target specifier).queries v.root,
        ∀ v', v.next? w q.specifier = some v' → Evaluates w v' (target q.specifier)) :
      Evaluates w v ((v.view fun specifier => (v.next? w specifier).map fun _ => target specifier).surface v.root)

/-- A surface depends only on the modules it asks for. -/
theorem surface_view_congr {link link' : String → Option Surface}
    (h : ∀ q ∈ (v.view link).queries v.root, link' q.specifier = link q.specifier) :
    (v.view link').surface v.root = (v.view link).surface v.root := by
  rw [show v.view link' = (v.view link).relink link' from rfl]
  exact ModuleView.surface_relink h

/-- An evaluation ends in the surface. -/
theorem Evaluates.eq_surface {s : Surface} (h : Evaluates w v s) : s = v.surface w := by
  induction h with
  | intro v target _ ih =>
    rw [surface_unfold, linked]
    -- what is not asked for does not matter, so the two links need to agree on queries only
    refine (surface_view_congr fun q hq => ?_).symm
    cases hn : v.next? w q.specifier with
    | none => rfl
    | some v' => rw [Option.map_some, Option.map_some, ih q hq v' hn]

/-- Every module has an evaluation, and it ends in the surface. -/
theorem evaluates_surface (w : Workspace) (v : Visit) : Evaluates w v (v.surface w) := by
  obtain ⟨target, htarget⟩ : ∃ target : String → Surface, ∀ specifier v', v.next? w specifier = some v' →
      target specifier = v'.surface w :=
    ⟨fun specifier => ((v.next? w specifier).map (surface w)).getD {}, fun _ _ hn => by simp only [hn, Option.map_some,
      Option.getD_some]⟩
  have hlink : (fun specifier => (v.next? w specifier).map fun _ => target specifier) =
      fun specifier => (v.next? w specifier).map (surface w) := by
    funext specifier
    cases hn : v.next? w specifier with
    | none => rfl
    | some v' => rw [Option.map_some, Option.map_some, htarget specifier v' hn]
  rw [surface_unfold, linked, ← hlink]
  refine Evaluates.intro v target fun q _ v' hn => ?_
  rw [htarget q.specifier v' hn]
  exact evaluates_surface w v'
termination_by v.room w
decreasing_by exact room_lt hn

/-- Evaluation on demand ends, and its only answer is the surface. -/
theorem evaluates_iff {s : Surface} : Evaluates w v s ↔ s = v.surface w :=
  ⟨Evaluates.eq_surface, fun h => h ▸ evaluates_surface w v⟩

end Visit

/-- A file that can be read has the surface of its text. -/
theorem fileSurface_of_readText {w : Workspace} {path text : String} (h : w.tree.readText w.cwd path = .ok text) :
    fileSurface w path = .ok (surface w [] path text) := by
  unfold fileSurface
  rw [h]
  rfl

/-! ## Termination -/

/-- **Analysis ends.** On every chain of nested modules the keys under analysis are distinct and, after the first, keys
of files, so that there are at most as many modules on it as files and one more. Evaluation on demand ends with the
surface of the module, and so does evaluation with any budget from that number on. -/
theorem surface_terminates (w : Workspace) (path text : String) :
    (∀ (nested : List Visit) (last : Visit), List.IsChain (Visit.Enters w) (.entry path text :: nested) →
      (Visit.entry path text :: nested).getLast? = some last →
      last.inside w = ((Visit.entry path text :: nested).map fun v => key w v.path).reverse ∧
      (last.inside w).Nodup ∧ (∀ v ∈ nested, key w v.path ∈ w.tree.files) ∧
      (Visit.entry path text :: nested).length ≤ w.tree.files.card + 1) ∧
    (∀ s, Visit.Evaluates w (.entry path text) s ↔ s = surface w [] path text) ∧
    ∀ budget, w.tree.files.card + 1 ≤ budget → surfaceWithin w budget [] path text = surface w [] path text := by
  refine ⟨fun nested last hc hl => ?_, fun s => Visit.evaluates_iff, fun budget hb => ?_⟩
  · have hin := Visit.inside_of_chain hc hl
    have hnodup := Visit.nodup_of_chain hc (List.nodup_singleton _)
    have hfiles := Visit.mem_files_of_chain hc
    refine ⟨by rw [hin]; simp [Visit.inside, Visit.entry], hin ▸ hnodup, hfiles, ?_⟩
    have hkeys := List.nodup_reverse.1 (List.nodup_append.1 hnodup).1
    have hsub : (nested.map fun v => key w v.path).toFinset ⊆ w.tree.files := by
      intro l hl
      obtain ⟨v, hv, rfl⟩ := List.mem_map.1 (List.mem_toFinset.1 hl)
      exact hfiles v hv
    have hcard := Finset.card_le_card hsub
    rw [List.toFinset_card_of_nodup hkeys, List.length_map] at hcard
    rw [List.length_cons]
    omega
  · exact (Visit.surface_eq_surfaceWithin (v := .entry path text) (by omega : w.tree.files.card ≤ budget)).symm

/-- Two files that export everything of each other; the second also has a name of the first under another one. -/
def mutualPair : Workspace where
  tree := ⟨[(["a.ts"], .file (Text.encode "export * from './b'\nexport const A = 1")),
    (["b.ts"], .file (Text.encode "export * from './a'\nexport { A as B } from './a'"))]⟩
  cwd := []

/-- The bound on nested modules is attained: from a module that is no file, through all files. -/
theorem surface_terminates_mutualPair :
    ∃ nested last, List.IsChain (Visit.Enters mutualPair) (.entry "x.ts" "export * from './a'" :: nested) ∧
      (Visit.entry "x.ts" "export * from './a'" :: nested).getLast? = some last ∧
      (Visit.entry "x.ts" "export * from './a'" :: nested).length = mutualPair.tree.files.card + 1 ∧
      last.inside mutualPair = [["b.ts"], ["a.ts"], ["x.ts"]] ∧ (last.inside mutualPair).Nodup := by
  let a : Visit := ⟨[["x.ts"]], "/a.ts", "export * from './b'\nexport const A = 1"⟩
  let b : Visit := ⟨[["a.ts"], ["x.ts"]], "/b.ts",
    "export * from './a'\nexport { A as B } from './a'"⟩
  have hchain : List.IsChain (Visit.Enters mutualPair) [.entry "x.ts" "export * from './a'", a, b] :=
    .cons_cons ⟨"./a", by decide +kernel⟩ (.cons_cons ⟨"./b", by decide +kernel⟩ (.singleton b))
  obtain ⟨hin, hnodup, -, -⟩ := (surface_terminates mutualPair "x.ts" "export * from './a'").1 [a, b] b hchain rfl
  exact ⟨[a, b], b, hchain, rfl, by decide +kernel, hin.trans (by decide +kernel), hnodup⟩

end ModuleMock.Modules
