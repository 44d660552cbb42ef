import ModuleMock.Proofs.Modules.Nesting

/-!
# The guard against cycles

Analysis compares candidates with the modules under analysis, and reads them. `examined` lists every candidate that it
looks at, in a module and in the modules it leads to, also those that cannot be read. Where none of them is the key of a
further ancestor, that ancestor makes no difference, and where all of them have the same texts in another tree, neither
does that tree (`surfaceWithin_alike`): the two runs then search alike (`search_congr`), and lead to modules that again
differ in their ancestors only.
-/

namespace ModuleMock.Modules

open Syntax

/-! ## Candidates examined -/

/-- The candidates that a search looks at: up to the first that is being analysed or can be read. -/
def tried (w : Workspace) (ancestors : List Location) : List Path → List Path
  | [] => []
  | c :: cs =>
    if key w c.toString ∈ ancestors then [c]
    else
      match w.tree.readText w.cwd c.toString with
      | .ok _ => [c]
      | .error _ => c :: tried w ancestors cs

@[simp] theorem key_with_tree (w : Workspace) (t : FileTree) (path : String) :
    key { w with tree := t } path = key w path := rfl

/-- Searches depend on ancestors and on the tree through the candidates they look at. -/
theorem search_congr {w : Workspace} {t : FileTree} {ancestors ancestors' : List Location} : ∀ {cs : List Path},
    (∀ c ∈ tried w ancestors cs, (key w c.toString ∈ ancestors' ↔ key w c.toString ∈ ancestors) ∧
      FileTree.SameText w.cwd w.tree t c.toString) →
    search { w with tree := t } ancestors' cs = search w ancestors cs
  | [], _ => rfl
  | c :: cs, h => by
    obtain ⟨hc, htext⟩ := h c (by
      unfold tried
      split
      · exact List.mem_singleton_self c
      · split
        · exact List.mem_singleton_self c
        · exact List.mem_cons_self)
    unfold tried at h
    unfold search
    rw [key_with_tree]
    by_cases hk : key w c.toString ∈ ancestors
    · rw [if_pos hk, if_pos (hc.2 hk)]
    · rw [if_neg hk] at h
      rw [if_neg hk, if_neg (fun hk' => hk (hc.1 hk'))]
      dsimp only
      cases hr : w.tree.readText w.cwd c.toString with
      | ok text => rw [(htext text).2 hr]
      | error fault =>
        obtain ⟨fault', hr'⟩ := htext.error hr
        rw [hr] at h
        rw [hr']
        exact search_congr fun c' hc' => h c' (List.mem_cons_of_mem c hc')

namespace Visit

variable (w : Workspace)

/-- A module as its analysis sees it, with a budget for the modules it leads to. -/
def viewWithin (budget : Nat) (v : Visit) : ModuleView :=
  v.view fun specifier => (v.next? w specifier).map (surfaceWithin w budget)

/-- The candidates that are examined for a module and for those it leads to, with a budget for nested modules. -/
def examinedWithin : Nat → Visit → List Path
  | 0, _ => []
  | budget + 1, v =>
    ((v.viewWithin w budget).queries v.root).flatMap fun q =>
      tried w (v.inside w) (candidates w.cwd v.path q.specifier) ++
        match v.next? w q.specifier with
        | some v' => examinedWithin budget v'
        | none => []

variable {w}

/-- The module with further ancestors. -/
def under (ancestors : List Location) (v : Visit) : Visit := { v with ancestors := v.ancestors ++ ancestors }

theorem inside_under (ancestors : List Location) (v : Visit) :
    (v.under ancestors).inside w = v.inside w ++ ancestors := rfl

variable {t : FileTree} {ancestors : List Location}

/-- More ancestors and another tree change no step whose candidates they leave alone. -/
theorem next?_under {v : Visit} {specifier : String}
    (h : ∀ c ∈ tried w (v.inside w) (candidates w.cwd v.path specifier), key w c.toString ∉ ancestors ∧
      FileTree.SameText w.cwd w.tree t c.toString) :
    (v.under ancestors).next? { w with tree := t } specifier = (v.next? w specifier).map (under ancestors) := by
  have hs : search { w with tree := t } ((v.under ancestors).inside w) (candidates w.cwd v.path specifier) =
      search w (v.inside w) (candidates w.cwd v.path specifier) := by
    refine search_congr fun c hc => ⟨?_, (h c hc).2⟩
    rw [inside_under, List.mem_append]
    exact or_iff_left (h c hc).1
  unfold next?
  change Option.map _ (search { w with tree := t } ((v.under ancestors).inside w)
    (candidates w.cwd v.path specifier)).found? = _
  rw [hs, Option.map_map]
  rfl

/-- Ancestors that no examined candidate is a key of make no difference, nor do changes of the tree where no examined
candidate is read. -/
theorem surfaceWithin_alike : ∀ {budget : Nat} {v : Visit},
    (∀ c ∈ v.examinedWithin w budget, key w c.toString ∉ ancestors ∧ FileTree.SameText w.cwd w.tree t c.toString) →
    (v.under ancestors).surfaceWithin { w with tree := t } budget = v.surfaceWithin w budget
  | 0, v, _ => rfl
  | budget + 1, v, h => by
    rw [surfaceWithin_succ, surfaceWithin_succ]
    refine surface_view_congr (v := v) fun q hq => ?_
    have hq' : ∀ c ∈ tried w (v.inside w) (candidates w.cwd v.path q.specifier) ++ _, key w c.toString ∉ ancestors ∧
        FileTree.SameText w.cwd w.tree t c.toString := fun c hc => h c (List.mem_flatMap.2 ⟨q, hq, hc⟩)
    obtain ⟨htried, hnext⟩ := List.forall_mem_append.1 hq'
    rw [next?_under htried]
    cases hn : v.next? w q.specifier with
    | none => simp only [Option.map_none]
    | some v' =>
      rw [hn] at hnext
      simp only [Option.map_some]
      rw [surfaceWithin_alike hnext]

/-! ## Budgets -/

/-- A budget of at least the room shows all of a module. -/
theorem viewWithin_succ_of_room_le {budget : Nat} {v : Visit} (h : v.room w ≤ budget) :
    v.viewWithin w (budget + 1) = v.viewWithin w budget := by
  have hsame : (fun specifier => (v.next? w specifier).map (surfaceWithin w (budget + 1))) =
      fun specifier => (v.next? w specifier).map (surfaceWithin w budget) := by
    funext specifier
    cases hn : v.next? w specifier with
    | none => simp only [Option.map_none]
    | some v' =>
      have hroom := room_lt hn
      simp only [Option.map_some]
      rw [surfaceWithin_succ_of_room_le (by omega)]
  rw [viewWithin, hsame, viewWithin]

/-- The files that are examined are the candidates of each query, and those of the modules found. -/
theorem examinedWithin_succ (budget : Nat) (v : Visit) :
    v.examinedWithin w (budget + 1) = ((v.viewWithin w budget).queries v.root).flatMap fun q =>
      tried w (v.inside w) (candidates w.cwd v.path q.specifier) ++
        match v.next? w q.specifier with
        | some v' => examinedWithin w budget v'
        | none => [] := by
  rfl

/-- A budget beyond all files off the chain is enough to find all candidates. -/
theorem examinedWithin_succ_of_room_lt {budget : Nat} {v : Visit} (h : v.room w < budget) :
    v.examinedWithin w (budget + 1) = v.examinedWithin w budget := by
  induction budget generalizing v with
  | zero => omega
  | succ budget ih =>
    rw [examinedWithin_succ, examinedWithin_succ, viewWithin_succ_of_room_le (by omega)]
    refine List.flatMap_congr fun q _ => ?_
    cases hn : v.next? w q.specifier with
    | none => rfl
    | some v' =>
      have hroom := room_lt hn
      dsimp only
      rw [ih (by omega)]

/-- A budget of more than the room examines everything. -/
theorem examinedWithin_of_room_lt {budget budget' : Nat} {v : Visit} (h : v.room w < budget) (hle : budget ≤ budget') :
    v.examinedWithin w budget' = v.examinedWithin w budget := by
  induction budget', hle using Nat.le_induction with
  | base => rfl
  | succ n hn ih => rw [examinedWithin_succ_of_room_lt (by omega), ih]

end Visit

/-- The candidates examined in the analysis of a module from scratch, in it and in the modules it leads to. -/
def examined (w : Workspace) (path text : String) : List Path := Visit.examinedWithin w (budget w) (.entry path text)

/-- Ancestors that no search comes upon do not matter. -/
theorem surface_of_not_examined {w : Workspace} {path text : String} {ancestors : List Location}
    (h : ∀ c ∈ examined w path text, key w c.toString ∉ ancestors) :
    surface w ancestors path text = surface w [] path text := by
  have hexamined : ∀ c ∈ (Visit.entry path text).examinedWithin w (budget w), key w c.toString ∉ ancestors ∧
      FileTree.SameText w.cwd w.tree w.tree c.toString := fun c hc => ⟨h c hc, .refl _ _ _⟩
  have halike := Visit.surfaceWithin_alike hexamined
  rw [show ({ w with tree := w.tree } : Workspace) = w from rfl] at halike
  exact halike

/-- In another tree a module has the same surface if all examined candidates have the same texts there. -/
theorem surface_of_sameText {w : Workspace} {t : FileTree} {path text : String}
    (h : ∀ c ∈ examined w path text, FileTree.SameText w.cwd w.tree t c.toString) :
    surface { w with tree := t } [] path text = surface w [] path text := by
  -- the trees may hold different numbers of files, so both surfaces are taken with a budget for either
  have hroom : (Visit.entry path text).room w < budget w := by
    have hle := Visit.room_le w (.entry path text)
    have hcard := w.tree.card_files_le
    unfold budget
    omega
  have hexamined := Visit.examinedWithin_of_room_lt hroom (Nat.le_max_left (budget w) t.files.card)
  have hsame : ∀ c ∈ (Visit.entry path text).examinedWithin w (max (budget w) t.files.card), key w c.toString ∉ [] ∧
      FileTree.SameText w.cwd w.tree t c.toString := by
    intro c hc
    rw [hexamined] at hc
    exact ⟨List.not_mem_nil, h c hc⟩
  have halike := Visit.surfaceWithin_alike hsame
  have hleft := Visit.surface_eq_surfaceWithin (w := { w with tree := t }) (v := .entry path text)
    (Nat.le_max_right (budget w) t.files.card)
  have henough : w.tree.files.card ≤ max (budget w) t.files.card := by
    have hcard := w.tree.card_files_le
    unfold budget
    omega
  have hright := Visit.surface_eq_surfaceWithin (v := .entry path text) henough
  exact hleft.trans (halike.trans hright.symm)

/-- **The guard is invisible where there is no cycle.** If no candidate examined for a file is the key of an ancestor,
the file has the surface it has by itself, and so it contributes to every module that asks for it under these
ancestors. -/
theorem fileSurface_eq_under_ancestors {w : Workspace} {path text : String} {ancestors : List Location}
    (hp : w.tree.readText w.cwd path = .ok text) (h : ∀ c ∈ examined w path text, key w c.toString ∉ ancestors) :
    fileSurface w path = .ok (surface w ancestors path text) ∧
      ∀ importer specifier c t, search w ancestors (candidates w.cwd importer specifier) = .found c t →
        c.toString = path → link w ancestors importer specifier = (fileSurface w path).toOption := by
  have hs := surface_of_not_examined h
  have hf : fileSurface w path = .ok (surface w ancestors path text) := by
    rw [hs]
    exact fileSurface_of_readText hp
  refine ⟨hf, fun importer specifier c t hc he => ?_⟩
  obtain ⟨-, -, -, -, -, ht⟩ := search_eq_found.1 hc
  rw [he, hp] at ht
  cases ht
  unfold link
  rw [Search.found?_eq_some.2 hc, hf, Option.map_some, he]
  rfl

/-- In a cycle of two files, the guard that a third file sets is invisible. -/
theorem fileSurface_eq_under_ancestors_mutualPair :
    ∃ text, mutualPair.tree.readText mutualPair.cwd "a.ts" = .ok text ∧
      (∀ c ∈ examined mutualPair "a.ts" text, key mutualPair c.toString ∉ [["main.ts"]]) ∧
      fileSurface mutualPair "a.ts" = .ok (surface mutualPair [["main.ts"]] "a.ts" text) := by
  have hp : mutualPair.tree.readText mutualPair.cwd "a.ts" = .ok "export * from './b'\nexport const A = 1" :=
    FileTree.readText_of_toOption (by decide +kernel)
  have h : ∀ c ∈ examined mutualPair "a.ts" "export * from './b'\nexport const A = 1",
      key mutualPair c.toString ∉ [["main.ts"]] := by decide +kernel
  exact ⟨_, hp, h, (fileSurface_eq_under_ancestors hp h).1⟩

end ModuleMock.Modules
