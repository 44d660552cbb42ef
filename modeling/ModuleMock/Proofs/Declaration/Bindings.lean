import Mathlib.Data.List.Nodup
import ModuleMock.Proofs.Surface.Statements
import ModuleMock.Proofs.Syntax.Placement

/-!
# The bindings of a tree

`bindings` lists what a tree declares, in the order in which the table of declarations is written. The table is that
list with later bindings written over earlier ones (`ofTree_eq_ofList`): a name has its last binding
(`lookup_ofTree`), and there are as many entries as names (`length_ofTree_congr`).
-/

namespace ModuleMock

open Syntax

/-! ## Maps from lists of pairs -/

namespace OrderedMap

variable {α β : Type}

/-- Keys stay distinct under `put`. -/
theorem nodup_keys_put {m : OrderedMap α} (h : (keys m).Nodup) (k : String) (a : α) : (keys (put m k a)).Nodup := by
  rw [keys_put]
  split
  · exact h
  · rename_i hk
    exact List.nodup_append.2 ⟨h, List.nodup_singleton k, fun x hx y hy => by
      rw [List.mem_singleton.1 hy]
      exact fun e => hk (e ▸ hx)⟩

theorem nodup_keys_update : ∀ (other : List (String × α)) {m : OrderedMap α}, (keys m).Nodup →
    (keys (update m other)).Nodup
  | [], _, h => h
  | (k, a) :: other, _, h => nodup_keys_update other (nodup_keys_put h k a)

/-- A map made from pairs has distinct keys. -/
theorem nodup_keys_ofList (pairs : List (String × α)) : (keys (ofList pairs)).Nodup :=
  nodup_keys_update pairs List.nodup_nil

theorem mem_keys_ofList {pairs : List (String × α)} {x : String} : x ∈ keys (ofList pairs) ↔ x ∈ keys pairs := by
  unfold ofList
  rw [mem_keys_update]
  simp [keys]

/-- The last pair for a key is the one that is found. -/
theorem lookup_ofList (pairs : List (String × α)) (x : String) : (ofList pairs).lookup x = pairs.reverse.lookup x := by
  rw [ofList, lookup_update]
  exact Option.or_none

/-- The number of entries is that of the names, however often they are written. -/
theorem length_ofList_congr {pairs : List (String × α)} {pairs' : List (String × β)}
    (h : ∀ x, x ∈ keys pairs ↔ x ∈ keys pairs') : (ofList pairs).length = (ofList pairs').length := by
  have hkeys : (keys (ofList pairs)).Perm (keys (ofList pairs')) := by
    refine (List.perm_ext_iff_of_nodup (nodup_keys_ofList pairs) (nodup_keys_ofList pairs')).2 fun x => ?_
    rw [mem_keys_ofList, mem_keys_ofList, h]
  simpa [keys] using hkeys.length_eq

theorem lookup_map_snd (f : α → β) (x : String) : ∀ pairs : List (String × α),
    (pairs.map fun p => (p.1, f p.2)).lookup x = (pairs.lookup x).map f
  | [] => rfl
  | (k, a) :: pairs => by
    rw [List.map_cons, List.lookup_cons, List.lookup_cons, lookup_map_snd f x pairs]
    cases x == k <;> rfl

theorem keys_map_snd (f : α → β) (pairs : List (String × α)) :
    keys (pairs.map fun p => (p.1, f p.2)) = keys pairs := by
  simp [keys, Function.comp_def]

theorem lookup_reverse_append (first second : List (String × α)) (x : String) :
    (first ++ second).reverse.lookup x = (second.reverse.lookup x).or (first.reverse.lookup x) := by
  rw [List.reverse_append, List.lookup_append]

end OrderedMap

/-! ## Bindings -/

mutual

/-- What a node declares, at any depth: its own bindings before those of its descendants. -/
def bindings : Node → List (String × Declaration)
  | .mk k l e m cs => ownBindings (.mk k l e m cs) ++ if k = .form .importStatement then [] else bindingsAll cs

def bindingsAll : List Node → List (String × Declaration)
  | [] => []
  | n :: ns => bindings n ++ bindingsAll ns

end

theorem bindingsAll_eq (ns : List Node) : bindingsAll ns = ns.flatMap bindings := by
  induction ns with
  | nil => rfl
  | cons n ns ih => rw [bindingsAll, ih, List.flatMap_cons]

mutual

/-- Collecting declarations puts the bindings of a tree into the table, in order. -/
theorem collect_eq_update : ∀ (n : Node) (table : DeclarationTable),
    collect table n = OrderedMap.update table (bindings n)
  | .mk k l e m cs, table => by
    rw [collect, bindings]
    split
    · rw [List.append_nil]
    · rw [OrderedMap.update_append]
      exact collectAll_eq_update cs _

theorem collectAll_eq_update : ∀ (ns : List Node) (table : DeclarationTable),
    collectAll table ns = OrderedMap.update table (bindingsAll ns)
  | [], _ => rfl
  | n :: ns, table => by
    rw [collectAll, bindingsAll, OrderedMap.update_append, collect_eq_update n table]
    exact collectAll_eq_update ns _

end

/-- The table of a tree is made from its bindings. -/
theorem ofTree_eq_ofList (root : Node) : DeclarationTable.ofTree root = OrderedMap.ofList (bindings root) :=
  collect_eq_update root []

/-- A name stands for its last declaration. -/
theorem lookup_ofTree (root : Node) (name : String) :
    (DeclarationTable.ofTree root).lookup name = (bindings root).reverse.lookup name := by
  rw [ofTree_eq_ofList, OrderedMap.lookup_ofList]

mutual

/-- Each binding of a tree is made by a single node. -/
theorem exists_ownBindings : ∀ (n : Node) {p : String × Declaration}, p ∈ bindings n → ∃ m, p ∈ ownBindings m
  | .mk k l e m cs, p, h => by
    rw [bindings, List.mem_append] at h
    rcases h with h | h
    · exact ⟨_, h⟩
    · split at h
      · cases h
      · exact exists_ownBindings_all cs h

theorem exists_ownBindings_all : ∀ (ns : List Node) {p : String × Declaration}, p ∈ bindingsAll ns →
    ∃ m, p ∈ ownBindings m
  | [], _, h => by cases h
  | n :: ns, p, h => by
    rw [bindingsAll, List.mem_append] at h
    rcases h with h | h
    · exact exists_ownBindings n h
    · exact exists_ownBindings_all ns h

end

/-- A variable that is found was declared by a declarator. -/
theorem declarator_of_lookup {root d : Node} {x : String} {value : Option Node}
    (h : (DeclarationTable.ofTree root).lookup x = some (.variable d value)) :
    d.isForm .variableDeclarator = true ∧ d.child? .value = value ∧
      ∃ name, d.child? .name = some name ∧ name.isForm .identifier = true ∧ name.text = x := by
  rw [lookup_ofTree] at h
  obtain ⟨before, after, hsplit, -⟩ := List.lookup_eq_some_iff.1 h
  have hmem : (x, Declaration.variable d value) ∈ (bindings root).reverse := by simp [hsplit]
  obtain ⟨n, hn⟩ := exists_ownBindings root (List.mem_reverse.1 hmem)
  obtain ⟨rfl, hdeclarator⟩ := declarator_of_mem_ownBindings hn
  exact hdeclarator

/-- Trees that bind the same names have tables of the same length. -/
theorem length_ofTree_congr {root root' : Node}
    (h : ∀ x, x ∈ OrderedMap.keys (bindings root) ↔ x ∈ OrderedMap.keys (bindings root')) :
    (DeclarationTable.ofTree root).length = (DeclarationTable.ofTree root').length := by
  rw [ofTree_eq_ofList, ofTree_eq_ofList]
  exact OrderedMap.length_ofList_congr h

/-- The tree of a script is a program, or one fault where nothing could be read. -/
def IsRoot (n : Node) : Prop := n.isForm .program = true ∨ n.isForm .error = true

/-- A module declares what its statements declare. -/
theorem bindings_of_isRoot {root : Node} (h : IsRoot root) : bindings root = root.children.flatMap bindings := by
  obtain ⟨k, l, e, m, cs⟩ := root
  have hroot : k = .form .program ∨ k = .form .error := by simpa [IsRoot, Node.isForm, Node.kind] using h
  rcases hroot with rfl | rfl
  · rw [bindings, if_neg (by decide), bindingsAll_eq]
    rfl
  · rw [bindings, if_neg (by decide), bindingsAll_eq]
    rfl

mutual

/-- A tree binds the same names without places. -/
theorem bindings_unplaced : ∀ n : Node, bindings n.unplaced = (bindings n).map fun p => (p.1, p.2.unplaced)
  | .mk k l e m cs => by
    have hown := ownBindings_unplaced (.mk k l e m cs)
    rw [Node.unplaced_mk] at hown
    rw [Node.unplaced_mk, bindings, bindings, hown, List.map_append]
    split
    · rfl
    · rw [bindingsAll_unplaced cs]

theorem bindingsAll_unplaced : ∀ ns : List Node,
    bindingsAll (ns.map Node.unplaced) = (bindingsAll ns).map fun p => (p.1, p.2.unplaced)
  | [] => rfl
  | n :: ns => by
    rw [List.map_cons, bindingsAll, bindingsAll, List.map_append, bindings_unplaced n, bindingsAll_unplaced ns]

end

end ModuleMock
