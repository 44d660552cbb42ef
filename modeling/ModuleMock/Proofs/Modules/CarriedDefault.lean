import ModuleMock.Proofs.Modules.Wildcard

/-!
# Wildcards and the name `default`

A wildcard hands on all names of its module, and `default` is a name like any other where a list or a namespace exports
something under it. So a wildcard leaves `default` alone exactly if no module behind it writes that name
(`wildcard_leaves_default_iff`); a default export proper stays behind in any case.

`Visit.Spreads` is one wildcard step between modules under analysis. Unlike `WildcardEdge` it knows the guard, so that
the names of a surface are those written along it without any condition on the file tree (`Visit.mem_keys_iff_spread`).
-/

namespace ModuleMock.Modules

open Syntax ModuleView

variable {w : Workspace}

namespace Visit

/-- A wildcard of one module leads to another. -/
def Spreads (w : Workspace) (v v' : Visit) : Prop := ∃ source ∈ wildcards v.path v.text, v.next? w source = some v'

/-- The module writes a name by a statement of its own that is no wildcard. -/
def Writes (v : Visit) (name : String) : Prop := name ∈ ownNamesFrom false (exportStatements v.root)

instance (v : Visit) (name : String) : Decidable (v.Writes name) :=
  inferInstanceAs (Decidable (name ∈ ownNamesFrom false (exportStatements v.root)))

/-- Every name of a surface is written by some module that wildcards lead to. -/
theorem exists_spread_of_mem_keys {v : Visit} {name : String} (h : name ∈ OrderedMap.keys (v.surface w).named) :
    ∃ u, Relation.ReflTransGen (Spreads w) v u ∧ u.Writes name := by
  rcases mem_keys_surface_visit.1 h with h | ⟨source, hs, v', hn, h⟩
  · exact ⟨v, .refl, h⟩
  · obtain ⟨u, hwalk, hu⟩ := exists_spread_of_mem_keys h
    exact ⟨u, .head ⟨source, hs, hn⟩ hwalk, hu⟩
termination_by v.room w
decreasing_by exact room_lt hn

/-- A name that is written where wildcards lead to is a name of the surface. -/
theorem mem_keys_of_spread {v u : Visit} {name : String} (hwalk : Relation.ReflTransGen (Spreads w) v u)
    (hu : u.Writes name) : name ∈ OrderedMap.keys (v.surface w).named := by
  -- from the front, since the names of a module are told from those of the next one
  induction hwalk using Relation.ReflTransGen.head_induction_on with
  | refl => exact mem_keys_surface_visit.2 (.inl hu)
  | head hstep _ ih =>
    obtain ⟨source, hs, hn⟩ := hstep
    exact mem_keys_surface_visit.2 (.inr ⟨source, hs, _, hn, ih⟩)

/-- The names of a module are those that the modules behind its wildcards write. -/
theorem mem_keys_iff_spread {v : Visit} {name : String} : name ∈ OrderedMap.keys (v.surface w).named ↔
    ∃ u, Relation.ReflTransGen (Spreads w) v u ∧ u.Writes name :=
  ⟨exists_spread_of_mem_keys, fun ⟨_, hwalk, hu⟩ => mem_keys_of_spread hwalk hu⟩

end Visit

/-! ## One wildcard -/

theorem formOf_of_wildcardSource? {statement : Node} {source : String} (h : wildcardSource? statement = some source) :
    formOf statement = .wildcard source := by
  unfold wildcardSource? at h
  split at h
  · rename_i hf
    rw [hf, Option.some.inj h]
  · cases h

/-- What a wildcard does to a surface: it writes the names of its module over those that are there. -/
theorem visitExport_wildcard {v : ModuleView} {statement : Node} {source : String}
    (h : wildcardSource? statement = some source) (s : Surface) :
    v.visitExport s statement = s.write (v.wildcardPairs source) := by
  rw [visitExport_form, formOf_of_wildcardSource? h]
  exact visitWildcard_eq s source

/-- A name keeps what it stands for through a wildcard, whatever that is, exactly if the module behind the wildcard does
not have it. -/
theorem lookup_visitExport_wildcard_iff {v : ModuleView} {statement : Node} {source name : String}
    (h : wildcardSource? statement = some source) :
    (∀ s : Surface, (v.visitExport s statement).named.lookup name = s.named.lookup name) ↔
      ∀ target, v.link source = some target → name ∉ OrderedMap.keys target.named := by
  have hpairs : (∀ target, v.link source = some target → name ∉ OrderedMap.keys target.named) ↔
      (v.wildcardPairs source).reverse.lookup name = none := by
    rw [OrderedMap.lookup_reverse_eq_none_iff]
    unfold wildcardPairs
    cases v.link source with
    | none => simp [OrderedMap.keys]
    | some target => simp
  rw [hpairs]
  constructor
  · intro hkeeps
    have hempty := hkeeps {}
    rw [visitExport_wildcard h, Surface.write, OrderedMap.lookup_update] at hempty
    simpa using hempty
  · intro hnone s
    rw [visitExport_wildcard h, Surface.write, OrderedMap.lookup_update, hnone, Option.none_or]

/-- **When a wildcard leaves `default` alone.** Reading a wildcard of a module changes nothing about the name `default`
exactly if no module behind it, however far, writes that name by a list or a namespace of its own. The default export of
the module itself never changes. -/
theorem wildcard_leaves_default_iff (w : Workspace) (v : Visit) {statement : Node} {source : String}
    (h : wildcardSource? statement = some source) :
    (∀ s, ((v.linked w).visitExport s statement).default? = s.default?) ∧
    ((∀ s, ((v.linked w).visitExport s statement).named.lookup "default" = s.named.lookup "default") ↔
      ∀ v', v.next? w source = some v' → ∀ u, Relation.ReflTransGen (Visit.Spreads w) v' u → ¬ u.Writes "default") := by
  refine ⟨fun s => ?_, ?_⟩
  · have hs := visitExport_wildcard (v := v.linked w) h s
    simp only [hs, Surface.write]
  · rw [lookup_visitExport_wildcard_iff h]
    have hlink : (v.linked w).link source = (v.next? w source).map (Visit.surface w) := by
      rw [Visit.linked, Visit.view_link]
    simp only [hlink, Option.map_eq_some_iff, forall_exists_index, and_imp]
    constructor
    · intro hkeys v' hn u hwalk hu
      exact hkeys _ v' hn rfl (Visit.mem_keys_iff_spread.2 ⟨u, hwalk, hu⟩)
    · rintro hnone _ v' hn rfl hkey
      obtain ⟨u, hwalk, hu⟩ := Visit.mem_keys_iff_spread.1 hkey
      exact hnone v' hn u hwalk hu

/-- A default export, behind a module that exports everything of it. -/
def nestedDefault : Workspace where
  tree := ⟨[(["lib.ts"], .file (Text.encode "export const a = 1\nexport default \x7b hidden: true \x7d")),
    (["all.ts"], .file (Text.encode "export * from './lib'"))]⟩
  cwd := []

/-- A default export stays behind two wildcards. -/
theorem wildcard_leaves_default_nested :
    ∃ statement ∈ exportStatements (Visit.entry "main.ts" "export * from './all'").root,
      wildcardSource? statement = some "./all" ∧
      ∀ s, (((Visit.entry "main.ts" "export * from './all'").linked nestedDefault).visitExport s statement).named.lookup
        "default" = s.named.lookup "default" := by
  have hsource : ∃ statement ∈ exportStatements (Visit.entry "main.ts" "export * from './all'").root,
      wildcardSource? statement = some "./all" := by decide +kernel
  obtain ⟨statement, hmem, hs⟩ := hsource
  refine ⟨statement, hmem, hs, (wildcard_leaves_default_iff nestedDefault _ hs).2.2 fun v' hn u hwalk => ?_⟩
  let all : Visit := ⟨[["main.ts"]], "/all.ts", "export * from './lib'"⟩
  let lib : Visit := ⟨[["all.ts"], ["main.ts"]], "/lib.ts", "export const a = 1\nexport default \x7b hidden: true \x7d"⟩
  have hfirst : ∀ v' ∈ (Visit.entry "main.ts" "export * from './all'").next? nestedDefault "./all",
      v' ∈ [all, lib] := by
    decide +kernel
  have hclosed : ∀ v ∈ [all, lib], ∀ source ∈ wildcards v.path v.text, ∀ v' ∈ v.next? nestedDefault source,
      v' ∈ [all, lib] := by decide +kernel
  have hwrites : ∀ v ∈ [all, lib], ¬ v.Writes "default" := by decide +kernel
  have hreached : u ∈ [all, lib] := by
    induction hwalk with
    | refl => exact hfirst v' hn
    | tail _ hstep ih =>
      obtain ⟨source, hsource, hnext⟩ := hstep
      exact hclosed _ ih source hsource _ hnext
  exact hwrites u hreached

/-- A module that exports a name of its own as `default`. -/
def aliasedDefault : Workspace where
  tree := ⟨[(["a.ts"], .file (Text.encode "const x = 1\nexport \x7b x as default \x7d"))]⟩
  cwd := []

/-- A default that is written as an alias gets through a wildcard. -/
theorem wildcard_carries_aliased_default :
    ∃ statement ∈ exportStatements (Visit.entry "main.ts" "export * from './a'").root,
      wildcardSource? statement = some "./a" ∧ "default" ∉ OrderedMap.keys ({} : Surface).named ∧
      "default" ∈ OrderedMap.keys
        (((Visit.entry "main.ts" "export * from './a'").linked aliasedDefault).visitExport {} statement).named := by
  decide +kernel

end ModuleMock.Modules
