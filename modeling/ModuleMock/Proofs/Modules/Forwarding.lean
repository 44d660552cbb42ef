import Mathlib.Logic.Relation
import ModuleMock.Proofs.Modules.Guard

/-!
# Names handed on from module to module

A list can take a name from another module: from the one that it names, or through an import of its own module. If no
later statement writes that name, the module hands it on (`HandsOn`).

- `TakesLast.lookup`: such a name stands for what it stands for in the other module, however it was taken.
- `HandsOn.lookup`, `lookup_of_relay`: one step and any number of steps from module to module. The modules that have
  been passed are under analysis at each step, so the guard lets a step through only if it leads to a further one.
-/

namespace ModuleMock

open Syntax

/-- A list falls into what comes before a place, what stands there and the rest. -/
theorem split_of_getElem? {α : Type} {l : List α} {i : Nat} {a : α} (h : l[i]? = some a) :
    l = l.take i ++ a :: l.drop (i + 1) := by
  obtain ⟨hlt, hget⟩ := List.getElem?_eq_some_iff.1 h
  rw [← hget, ← List.drop_eq_getElem_cons hlt, List.take_append_drop]

/-- A name that is imported stands for what the module it is imported from exports. -/
theorem Scope.resolve_of_imported {scope : Scope} {name source imported : String}
    (h : scope.table.lookup name = some (.imported source imported)) :
    scope.resolve name = entityFrom (scope.link source) imported := by
  unfold resolve
  cases hl : scope.table.length with
  | zero =>
    rw [List.length_eq_zero_iff.1 hl] at h
    cases h
  | succ budget => rw [resolveWithin, if_neg List.not_mem_nil, h]

namespace ModuleView

variable {v : ModuleView} {root statement : Node} {name specifier original : String}

/-! ## Lists that take a name from another module -/

/-- The module, and the name there, that the list of a statement takes a name from. -/
def origin? (table : DeclarationTable) (statement : Node) (name : String) : Option (String × String) :=
  match formOf statement with
  | .list clause source =>
    ((clause.namedChildren.filterMap specifierNames?).reverse.find? fun p => p.2 = name).bind fun p =>
      match source with
      | some source => some (source, p.1)
      | none =>
        match table.lookup p.1 with
        | some (.imported source imported) => some (source, imported)
        | _ => none
  | _ => none

/-- A statement takes a name from another module, and no later statement writes that name. -/
def TakesLast (v : ModuleView) (root : Node) (name specifier original : String) : Prop :=
  ∃ i, ((exportStatements root)[i]?.bind fun statement => origin? v.table statement name) =
      some (specifier, original) ∧
    name ∉ OrderedMap.keys (v.pairsFrom (((exportStatements root).take i).any acceptsDefault)
      ((exportStatements root).drop (i + 1)))

/-- Looking up a pair under its second component. -/
theorem lookup_map_swapped {α : Type} (f : String → α) (name : String) : ∀ pairs : List (String × String),
    (pairs.map fun p => (p.2, f p.1)).lookup name = (pairs.find? fun p => p.2 = name).map fun p => f p.1
  | [] => rfl
  | (x, y) :: pairs => by
    by_cases hy : y = name
    · simp [hy]
    · have hne : (name == y) = false := beq_eq_false_iff_ne.2 (Ne.symm hy)
      simp only [List.map_cons, List.lookup_cons, hne, List.find?_cons, hy, decide_false]
      exact lookup_map_swapped f name pairs

/-- Both ways of taking a name give what the other module exports. -/
theorem lookup_pairs_of_origin? (taken : Bool) (h : origin? v.table statement name = some (specifier, original)) :
    acceptsDefault statement = false ∧
      (v.pairs taken statement).reverse.lookup name = some (entityFrom (v.link specifier) original) := by
  unfold origin? at h
  unfold acceptsDefault pairs
  cases hf : formOf statement with
  | list clause source =>
    rw [hf] at h
    dsimp only at h ⊢
    obtain ⟨p, hp, ho⟩ := Option.bind_eq_some_iff.1 h
    refine ⟨rfl, ?_⟩
    rw [listPairs, ← List.map_reverse, lookup_map_swapped, hp, Option.map_some]
    cases source with
    | some source => cases ho; rfl
    | none =>
      dsimp only at ho
      split at ho
      · rename_i himport
        cases ho
        exact congrArg some (Scope.resolve_of_imported himport)
      · cases ho
  | _ => rw [hf] at h; cases h

/-- A name is exported as what the last statement that gives it takes over. -/
theorem TakesLast.lookup (h : v.TakesLast root name specifier original) :
    (v.surface root).named.lookup name = some (entityFrom (v.link specifier) original) := by
  obtain ⟨i, horigin, hlater⟩ := h
  obtain ⟨statement, hi, horigin⟩ := Option.bind_eq_some_iff.1 horigin
  obtain ⟨hd, hlookup⟩ := lookup_pairs_of_origin? (((exportStatements root).take i).any acceptsDefault) horigin
  have hnone := OrderedMap.lookup_reverse_eq_none hlater
  rw [named_surface, split_of_getElem? hi, pairsFrom_append, pairsFrom, hd, Bool.or_false, Bool.false_or,
    OrderedMap.ofList, OrderedMap.lookup_update]
  simp only [List.reverse_append, List.lookup_append, hnone, hlookup, Option.none_or, Option.some_or]

end ModuleView

namespace Modules

open ModuleView

variable {w : Workspace}

/-! ## Steps -/

/-- A module under analysis, and a name of it. -/
structure Offer extends Visit where
  name : String

/-- The first candidate of a specifier that can be read is the target, and none before it is under analysis. -/
def LeadsTo (w : Workspace) (v : Visit) (specifier target : String) : Prop :=
  ∃ i, ((candidates w.cwd v.path specifier)[i]?.map Path.toString) = some target ∧
    ∀ b ∈ (candidates w.cwd v.path specifier).take i, ¬ Readable w b.toString ∧ key w b.toString ∉ v.inside w

/-- A module hands on a name of another one, which is not under analysis yet and is analysed next. -/
structure HandsOn (w : Workspace) (o o' : Offer) : Prop where
  ancestors : o'.ancestors = o.inside w
  other : key w o'.path ∉ o.inside w
  text : w.tree.readText w.cwd o'.path = .ok o'.text
  name : o'.name ≠ "*"
  taken : ∃ specifier, (o.linked w).TakesLast o.root o.name specifier o'.name ∧ LeadsTo w o.toVisit specifier o'.path

/-- No candidate stops the search before the target. -/
theorem LeadsTo.next {v : Visit} {specifier target text : String} (h : LeadsTo w v specifier target)
    (hk : key w target ∉ v.inside w) (ht : w.tree.readText w.cwd target = .ok text) :
    v.next? w specifier = some ⟨v.inside w, target, text⟩ := by
  obtain ⟨i, hi, hbefore⟩ := h
  obtain ⟨c, hc, rfl⟩ := Option.map_eq_some_iff.1 hi
  have hfound : search w (v.inside w) (candidates w.cwd v.path specifier) = .found c text :=
    search_eq_found.2 ⟨_, _, split_of_getElem? hc, fun b hb => ⟨(hbefore b hb).2, (hbefore b hb).1⟩, hk, ht⟩
  unfold Visit.next?
  rw [Search.found?_eq_some.2 hfound]
  rfl

/-- A module that hands a name on exports what the other module has for it. -/
theorem HandsOn.lookup {o o' : Offer} (h : HandsOn w o o') :
    (o.surface w).named.lookup o.name = some ((o'.surface w).entity o'.name) := by
  obtain ⟨specifier, htakes, hleads⟩ := h.taken
  have hnext : o.next? w specifier = some o'.toVisit := by
    rw [hleads.next h.other h.text, ← h.ancestors]
  rw [Visit.surface_unfold, htakes.lookup, Visit.linked, Visit.view_link, hnext, Option.map_some]
  rfl

/-! ## Any number of steps -/

theorem entity_of_lookup {s : Surface} {name : String} {e : Entity} (hn : name ≠ "*")
    (h : s.named.lookup name = some e) : s.entity name = e := by
  unfold Surface.entity
  rw [if_neg hn, h]

/-- A relay of modules that hand a name on ends in the entity of the last. -/
theorem lookup_of_relay {o last : Offer} (h : Relation.TransGen (HandsOn w) o last) :
    last.name ≠ "*" ∧ w.tree.readText w.cwd last.path = .ok last.text ∧
      (o.surface w).named.lookup o.name = some ((last.surface w).entity last.name) := by
  -- from the front, since each step adds an ancestor to the visits after it and leaves the last one as it is
  induction h using Relation.TransGen.head_induction_on with
  | single h => exact ⟨h.name, h.text, h.lookup⟩
  | head h _ ih =>
    obtain ⟨hn, ht, hl⟩ := ih
    exact ⟨hn, ht, by rw [h.lookup, entity_of_lookup h.name hl]⟩

/-- **Names pass through modules unchanged.** When a name is handed on from module to module, by lists that name their
module or by imports, the first module exports what the last one gives by itself, provided that analysing the last one
by itself examines none of the modules before it, which are its ancestors here. -/
theorem fileSurface_lookup_of_relay {path text name : String} {last : Offer}
    (hp : w.tree.readText w.cwd path = .ok text)
    (h : Relation.TransGen (HandsOn w) ⟨.entry path text, name⟩ last)
    (hc : ∀ c ∈ examined w last.path last.text, key w c.toString ∉ last.ancestors) :
    ∃ s t, fileSurface w path = .ok s ∧ fileSurface w last.path = .ok t ∧
      s.named.lookup name = some (match t.named.lookup last.name with
        | some e => e
        | none =>
          match t.default? with
          | some props => if last.name = "default" then .object props else .unknown
          | none => .unknown) := by
  obtain ⟨hn, ht, hl⟩ := lookup_of_relay h
  have hs : last.surface w = surface w [] last.path last.text := surface_of_not_examined hc
  rw [hs, Surface.entity, if_neg hn] at hl
  exact ⟨_, _, fileSurface_of_readText hp, fileSurface_of_readText ht, hl⟩

/-- A name that is taken from a list, there from an import, and there from a default export. -/
def relayedDefault : Workspace where
  tree := ⟨[(["main.ts"], .file (Text.encode "export { X as Y } from './b'")),
    (["b.ts"], .file (Text.encode "import l from './a'\nexport { l as X }")),
    (["a.ts"], .file (Text.encode "export default { k: 1 }"))]⟩
  cwd := []

/-- The object of a default export arrives under the name that the first list gives it. -/
theorem fileSurface_lookup_relayedDefault :
    ∃ s props, fileSurface relayedDefault "main.ts" = .ok s ∧ s.named.lookup "Y" = some (.object props) ∧
      OrderedMap.keys props = ["k"] := by
  let b : Offer := ⟨⟨[["main.ts"]], "/b.ts", "import l from './a'\nexport { l as X }"⟩, "X"⟩
  let a : Offer := ⟨⟨[["b.ts"], ["main.ts"]], "/a.ts", "export default { k: 1 }"⟩, "default"⟩
  have hb : HandsOn relayedDefault ⟨.entry "main.ts" "export { X as Y } from './b'", "Y"⟩ b :=
    ⟨by decide +kernel, by decide +kernel, FileTree.readText_of_toOption (by decide +kernel), by decide,
      "./b", ⟨0, by decide +kernel, by decide +kernel⟩, 1, by decide +kernel, by decide +kernel⟩
  have ha : HandsOn relayedDefault b a :=
    ⟨by decide +kernel, by decide +kernel, FileTree.readText_of_toOption (by decide +kernel), by decide,
      "./a", ⟨0, by decide +kernel, by decide +kernel⟩, 1, by decide +kernel, by decide +kernel⟩
  obtain ⟨s, t, hs, ht, hl⟩ := fileSurface_lookup_of_relay (FileTree.readText_of_toOption (by decide +kernel))
    (.head hb (.single ha)) (by decide +kernel)
  have hlast : (fileSurface relayedDefault "/a.ts").toOption.map (fun t =>
      ((t.named.lookup "default").isNone, t.default?.map OrderedMap.keys)) = some (true, some ["k"]) := by
    decide +kernel
  rw [ht] at hlast
  obtain ⟨hnamed, hdefault⟩ := Prod.mk.inj (Option.some.inj hlast)
  obtain ⟨props, hprops, hkeys⟩ := Option.map_eq_some_iff.1 hdefault
  rw [show a.name = "default" from rfl, Option.isNone_iff_eq_none.1 hnamed, hprops] at hl
  exact ⟨s, props, hs, hl, hkeys⟩

end Modules

end ModuleMock
