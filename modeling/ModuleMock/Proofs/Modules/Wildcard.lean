import Mathlib.Logic.Relation
import ModuleMock.Proofs.Modules.Nesting

/-!
# Wildcards and cycles

Wildcards draw a graph between modules (`WildcardEdge`), possibly with cycles, which the guard cuts. Still a module has
exactly the names that the modules reachable from it write by themselves (`keys_fileSurface_iff_reachable`).

- No name is invented: what a specifier leads to is the first readable candidate (`edge_of_next?`).
- No name is lost: a walk that avoids the ancestors of a module can be cut after its last return to that module
  (`walk_cut`), and what remains also avoids the module itself. So the guard never stops it (`next?_of_edge`).

Paths of one file are interchangeable here (`sameModule`), since they have the same text, dialect and candidates.
-/

namespace ModuleMock.Modules

open Syntax ModuleView

variable {w : Workspace}

/-! ## The graph -/

/-- The modules that the wildcards of a module name. -/
def wildcards (path text : String) : List String :=
  (exportStatements (Visit.entry path text).root).filterMap wildcardSource?

/-- The file at the first path has a wildcard whose first readable candidate is the second path. -/
def WildcardEdge (w : Workspace) (path target : String) : Prop :=
  ∃ text, w.tree.readText w.cwd path = .ok text ∧ ∃ source ∈ wildcards path text, ∃ c,
    (candidates w.cwd path source).find? (fun c => Readable w c.toString) = some c ∧ c.toString = target

/-- The file at a path writes a name by a statement of its own that is no wildcard. -/
def WritesOwn (w : Workspace) (path name : String) : Prop :=
  ∃ text, w.tree.readText w.cwd path = .ok text ∧
    name ∈ ownNamesFrom false (exportStatements (Visit.entry path text).root)

/-- No candidate of a wildcard that cannot be read has the key of a file that can. -/
def Unshadowed (w : Workspace) : Prop :=
  ∀ path text, w.tree.readText w.cwd path = .ok text → ∀ source ∈ wildcards path text,
    ∀ c ∈ candidates w.cwd path source, ¬ Readable w c.toString → ∀ p, Readable w p → key w p ≠ key w c.toString

/-! ## Paths of one file -/

/-- Two paths to one file have the same candidates for every specifier. -/
theorem candidates_congr {p q : String} (h : key w p = key w q) (source : String) :
    candidates w.cwd p source = candidates w.cwd q source := by
  have hb : specifierBase w.cwd p source = specifierBase w.cwd q source := by
    unfold specifierBase
    rw [show Path.resolve w.cwd (.ofString p) = Path.resolve w.cwd (.ofString q) from h]
  unfold candidates
  rw [hb]

/-- Two readable paths to one file have the same tree. -/
theorem sameModule (ht : w.tree.Rooted) {p q text text' : String} (hp : w.tree.readText w.cwd p = .ok text)
    (hq : w.tree.readText w.cwd q = .ok text') (h : key w p = key w q) :
    (Visit.entry p text).root = (Visit.entry q text').root := by
  obtain rfl := FileTree.readText_unique hp hq h
  have hd : dialectOf p = dialectOf q := by
    unfold dialectOf
    rw [FileTree.getLast?_of_readText ht hp, FileTree.getLast?_of_readText ht hq,
      show Path.resolve w.cwd (.ofString p) = Path.resolve w.cwd (.ofString q) from h]
  unfold Visit.root Visit.entry
  rw [hd]

/-- Two readable paths to one file have the same wildcards. -/
theorem wildcards_congr (ht : w.tree.Rooted) {p q text text' : String} (hp : w.tree.readText w.cwd p = .ok text)
    (hq : w.tree.readText w.cwd q = .ok text') (h : key w p = key w q) : wildcards p text = wildcards q text' := by
  unfold wildcards
  rw [sameModule ht hp hq h]

/-- It is enough to look at one path for each file. -/
theorem unshadowed_of_paths (ht : w.tree.Rooted) (paths : List String)
    (hcover : ∀ l ∈ w.tree.files, ∃ p ∈ paths, Readable w p ∧ key w p = l)
    (h : ∀ p ∈ paths, ∀ text ∈ (w.tree.readText w.cwd p).toOption, ∀ source ∈ wildcards p text,
      ∀ c ∈ candidates w.cwd p source, Readable w c.toString ∨ key w c.toString ∉ w.tree.files) : Unshadowed w := by
  intro path text hpath source hs c hc hread q hreadq hkey
  obtain ⟨textq, hq⟩ := hreadq
  obtain ⟨p, hp, ⟨textp, hptext⟩, hpk⟩ := hcover _ (FileTree.resolve_mem_files hpath)
  rw [wildcards_congr ht hpath hptext hpk.symm] at hs
  rw [candidates_congr (q := p) hpk.symm] at hc
  rcases h p hp textp (by rw [hptext]; rfl) source hs c hc with hr | hf
  · exact hread hr
  · exact hf (hkey ▸ FileTree.resolve_mem_files hq)

/-- An edge leaves a file, whichever path leads to it. -/
theorem WildcardEdge.of_key (ht : w.tree.Rooted) {p q t : String} (he : WildcardEdge w p t) (hq : Readable w q)
    (h : key w p = key w q) : WildcardEdge w q t := by
  obtain ⟨text, hp, source, hs, c, hc, rfl⟩ := he
  obtain ⟨text', hq⟩ := hq
  refine ⟨text', hq, source, ?_, c, ?_, rfl⟩
  · rwa [← wildcards_congr ht hp hq h]
  · rwa [← candidates_congr h]

/-- A file writes its names, whichever path leads to it. -/
theorem WritesOwn.of_key (ht : w.tree.Rooted) {p q name : String} (hp : WritesOwn w p name) (hq : Readable w q)
    (h : key w p = key w q) : WritesOwn w q name := by
  obtain ⟨text, hp, hn⟩ := hp
  obtain ⟨text', hq⟩ := hq
  exact ⟨text', hq, sameModule ht hp hq h ▸ hn⟩

/-! ## Visits and edges -/

namespace Visit

variable {v v' : Visit}

/-- The text is that of the path, and all ancestors are keys of files that can be read. -/
structure Loaded (w : Workspace) (v : Visit) : Prop where
  text : w.tree.readText w.cwd v.path = .ok v.text
  ancestors : ∀ l ∈ v.ancestors, ∃ p, Readable w p ∧ key w p = l

/-- A loaded module and those around it are readable. -/
theorem Loaded.inside (hv : v.Loaded w) : ∀ l ∈ v.inside w, ∃ p, Readable w p ∧ key w p = l := by
  intro l hl
  rcases List.mem_cons.1 hl with rfl | hl
  · exact ⟨v.path, ⟨v.text, hv.text⟩, rfl⟩
  · exact hv.ancestors l hl

/-- What a loaded module enters is loaded. -/
theorem Loaded.next (hv : v.Loaded w) {source : String} (h : v.next? w source = some v') : v'.Loaded w := by
  obtain ⟨ha, -, -, ht⟩ := next?_cases h
  refine ⟨ht, ?_⟩
  rw [ha]
  exact hv.inside

/-- The names of a surface are its own and those that its wildcards bring. -/
theorem mem_keys_surface_visit {name : String} : name ∈ OrderedMap.keys (v.surface w).named ↔
    name ∈ ownNamesFrom false (exportStatements v.root) ∨
      ∃ source ∈ wildcards v.path v.text, ∃ v', v.next? w source = some v' ∧
        name ∈ OrderedMap.keys (v'.surface w).named := by
  rw [surface_unfold, linked, mem_keys_surface, wildcards, root_entry]
  refine or_congr_right (exists_congr fun source => and_congr_right fun _ => ?_)
  simp only [view_link, Option.map_eq_some_iff]
  constructor
  · rintro ⟨_, ⟨v', hn, rfl⟩, hx⟩; exact ⟨v', hn, hx⟩
  · rintro ⟨v', hn, hx⟩; exact ⟨_, ⟨v', hn, rfl⟩, hx⟩

/-- A wildcard that is followed is an edge. -/
theorem edge_of_next? (hv : v.Loaded w) {source : String} (hs : source ∈ wildcards v.path v.text)
    (h : v.next? w source = some v') : WildcardEdge w v.path v'.path := by
  obtain ⟨⟨c, text⟩, hm, rfl⟩ := Option.map_eq_some_iff.1 h
  obtain ⟨before, after, hcs, hb, -, ht⟩ := search_eq_found.1 (Search.found?_eq_some.1 hm)
  refine ⟨v.text, hv.text, source, hs, c, ?_, rfl⟩
  rw [List.find?_eq_some_iff_append]
  refine ⟨by simpa using ⟨text, ht⟩, before, after, hcs, fun b hbm => ?_⟩
  simpa using (hb b hbm).2

/-- An edge to a module that is not under analysis is not stopped by the guard. -/
theorem next?_of_edge (hu : Unshadowed w) (hv : v.Loaded w) {target : String} (he : WildcardEdge w v.path target)
    (hk : key w target ∉ v.inside w) :
    ∃ source ∈ wildcards v.path v.text, ∃ v', v.next? w source = some v' ∧ v'.path = target := by
  obtain ⟨text, ht, source, hs, c, hc, rfl⟩ := he
  obtain rfl : text = v.text := Except.ok.inj (ht.symm.trans hv.text)
  obtain ⟨hread, before, after, hcs, hb⟩ := List.find?_eq_some_iff_append.1 hc
  obtain ⟨t, htc⟩ : Readable w c.toString := by simpa using hread
  refine ⟨source, hs, ⟨v.inside w, c.toString, t⟩, ?_, rfl⟩
  have hfound : search w (v.inside w) (candidates w.cwd v.path source) = .found c t := by
    refine search_eq_found.2 ⟨before, after, hcs, fun b hbm => ?_, hk, htc⟩
    have hbr : ¬ Readable w b.toString := by simpa using hb b hbm
    refine ⟨fun hin => ?_, hbr⟩
    obtain ⟨p, hp, he⟩ := hv.inside _ hin
    exact hu v.path v.text ht source hs b (by rw [hcs]; simp [hbm]) hbr p hp he
  unfold next?
  rw [Search.found?_eq_some.2 hfound]
  rfl

/-! ## No name is invented -/

/-- Every name of a surface is written by a module that edges lead to. -/
theorem reachable_of_mem_keys {name : String} {v : Visit} (hv : v.Loaded w)
    (h : name ∈ OrderedMap.keys (v.surface w).named) :
    ∃ t, Relation.ReflTransGen (WildcardEdge w) v.path t ∧ WritesOwn w t name := by
  rcases mem_keys_surface_visit.1 h with h | ⟨source, hs, v', hn, h⟩
  · exact ⟨v.path, .refl, v.text, hv.text, by rwa [Visit.root_entry]⟩
  · obtain ⟨t, hwalk, ht⟩ := reachable_of_mem_keys (hv.next hn) h
    exact ⟨t, .head (edge_of_next? hv hs hn) hwalk, ht⟩
termination_by v.room w
decreasing_by exact room_lt hn

end Visit

/-! ## No name is lost -/

/-- An edge to a module that is none of the listed ones. -/
def EdgeOff (w : Workspace) (avoided : List Location) (path target : String) : Prop :=
  WildcardEdge w path target ∧ key w target ∉ avoided

/-- A walk either ends in the module where it starts, or it can be made to leave that module for good. -/
theorem walk_cut (ht : w.tree.Rooted) {avoided : List Location} {p t : String} (hp : Readable w p)
    (h : Relation.ReflTransGen (EdgeOff w avoided) p t) :
    key w t = key w p ∨ ∃ q, EdgeOff w (key w p :: avoided) p q ∧
      Relation.ReflTransGen (EdgeOff w (key w p :: avoided)) q t := by
  induction h with
  | refl => exact Or.inl rfl
  | @tail u t _ he ih =>
    by_cases hk : key w t = key w p
    · exact Or.inl hk
    · have hoff : key w t ∉ key w p :: avoided := by
        rw [List.mem_cons, not_or]
        exact ⟨hk, he.2⟩
      refine Or.inr ?_
      rcases ih with hu | ⟨q, hq, hwalk⟩
      · -- the walk is back at the start, so the step that follows can be taken from there
        exact ⟨t, ⟨he.1.of_key ht hp hu, hoff⟩, .refl⟩
      · exact ⟨q, hq, hwalk.tail ⟨he.1, hoff⟩⟩

/-- A name that is written at the end of a walk past the ancestors reaches the surface. -/
theorem Visit.mem_keys_of_walk (ht : w.tree.Rooted) (hu : Unshadowed w) {v : Visit} {t name : String}
    (hv : v.Loaded w) (hwalk : Relation.ReflTransGen (EdgeOff w v.ancestors) v.path t) (hn : WritesOwn w t name) :
    name ∈ OrderedMap.keys (v.surface w).named := by
  have hp : Readable w v.path := ⟨v.text, hv.text⟩
  rw [mem_keys_surface_visit]
  rcases walk_cut ht hp hwalk with hk | ⟨q, ⟨he, hoff⟩, hrest⟩
  · left
    obtain ⟨text, htext, hmem⟩ := hn.of_key ht hp hk
    obtain rfl : text = v.text := Except.ok.inj (htext.symm.trans hv.text)
    rwa [root_entry] at hmem
  · right
    obtain ⟨source, hs, v', hnext, rfl⟩ := next?_of_edge hu hv he hoff
    refine ⟨source, hs, v', hnext, ?_⟩
    rw [show key w v.path :: v.ancestors = v'.ancestors from (next?_cases hnext).1.symm] at hrest
    exact mem_keys_of_walk ht hu (hv.next hnext) hrest hn
termination_by v.room w
decreasing_by exact room_lt hnext

/-- **The names of a module are those of all modules that its wildcards reach**, whether or not there are cycles. -/
theorem keys_fileSurface_iff_reachable (ht : w.tree.Rooted) (hu : Unshadowed w) {path : String}
    (hp : Readable w path) : ∃ s, fileSurface w path = .ok s ∧ ∀ name, name ∈ OrderedMap.keys s.named ↔
      ∃ t, Relation.ReflTransGen (WildcardEdge w) path t ∧ WritesOwn w t name := by
  obtain ⟨text, htext⟩ := hp
  have hv : (Visit.entry path text).Loaded w := ⟨htext, by simp [Visit.entry]⟩
  refine ⟨(Visit.entry path text).surface w, fileSurface_of_readText htext, fun name =>
    ⟨Visit.reachable_of_mem_keys hv, ?_⟩⟩
  rintro ⟨t, hwalk, hn⟩
  refine Visit.mem_keys_of_walk ht hu hv ?_ hn
  exact hwalk.lift id fun p q he => ⟨he, List.not_mem_nil⟩

/-- Each of two files that export everything of each other has the names of both. -/
theorem keys_fileSurface_mutualPair :
    mutualPair.tree.Rooted ∧ Unshadowed mutualPair ∧ Readable mutualPair "a.ts" ∧
      ∃ t, Relation.ReflTransGen (WildcardEdge mutualPair) "a.ts" t ∧ WritesOwn mutualPair t "B" := by
  have ht : mutualPair.tree.Rooted := FileTree.rooted_of_entries (by decide +kernel)
  have hu : Unshadowed mutualPair := unshadowed_of_paths ht ["a.ts", "b.ts"] (by decide +kernel) (by decide +kernel)
  have hp : Readable mutualPair "a.ts" := by decide +kernel
  refine ⟨ht, hu, hp, ?_⟩
  obtain ⟨s, hs, hkeys⟩ := keys_fileSurface_iff_reachable ht hu hp
  have hnames : (fileSurface mutualPair "a.ts").toOption.map (fun s => OrderedMap.keys s.named) =
      some ["B", "A"] := by decide +kernel
  rw [hs] at hnames
  have hnames : OrderedMap.keys s.named = ["B", "A"] := Option.some.inj hnames
  refine (hkeys "B").1 ?_
  rw [hnames]
  exact List.mem_cons_self

end ModuleMock.Modules
