import ModuleMock.Proofs.Declaration.Bindings
import ModuleMock.Proofs.Surface.Statements

/-!
# Properties that surfaces keep

A property of entities is kept by a module (`Scope.Keeps`) if functions, placeholders and the literals of the module
have it, if an object has it whose members all do, and if all exports of the modules that it names have it. Then all its
own exports have it:

- `Scope.Keeps.resolve`, `Scope.Keeps.classify`: what a name or a value stands for;
- `ModuleView.has_pairs`, `ModuleView.membersHave_statementDefault?`: what a statement writes;
- `ModuleView.has_surface`: the whole surface.
-/

namespace ModuleMock

open Syntax

/-! ## Maps -/

namespace OrderedMap

variable {α : Type}

/-- What is in a map after writing was written, or was in it before. -/
theorem eq_or_mem_of_mem_put {m : OrderedMap α} {k : String} {a : α} {p : String × α} (h : p ∈ put m k a) :
    p = (k, a) ∨ p ∈ m := by
  fun_induction put m k a with
  | case1 k a => exact .inl (List.mem_singleton.1 h)
  | case2 k' a' m a =>
    rcases List.mem_cons.1 h with rfl | h
    · exact .inl rfl
    · exact .inr (List.mem_cons_of_mem _ h)
  | case3 k' a' m k a _ ih =>
    rcases List.mem_cons.1 h with rfl | h
    · exact .inr List.mem_cons_self
    · exact (ih h).imp_right (List.mem_cons_of_mem _)

/-- What is in a map after an `update` was there before or is new. -/
theorem mem_or_mem_of_mem_update {other : List (String × α)} {m : OrderedMap α} {p : String × α}
    (h : p ∈ update m other) : p ∈ m ∨ p ∈ other := by
  induction other generalizing m with
  | nil => exact .inl h
  | cons q other ih =>
    rcases ih (m := put m q.1 q.2) h with h | h
    · rcases eq_or_mem_of_mem_put h with rfl | h
      · exact .inr List.mem_cons_self
      · exact .inl h
    · exact .inr (List.mem_cons_of_mem _ h)

end OrderedMap

/-- All entities of a map have a property, and its keys are distinct. -/
structure MembersHave (P : Entity → Prop) (props : OrderedMap Entity) : Prop where
  keys : (OrderedMap.keys props).Nodup
  entities : ∀ p ∈ props, P p.2

namespace MembersHave

variable {P : Entity → Prop} {props : OrderedMap Entity} {e : Entity} {k : String}

theorem nil : MembersHave P [] := ⟨List.nodup_nil, fun _ h => absurd h List.not_mem_nil⟩

theorem singleton (he : P e) : MembersHave P [(k, e)] :=
  ⟨List.nodup_singleton k, fun p hp => by rw [List.mem_singleton.1 hp]; exact he⟩

/-- Putting an entity that has the property keeps it for all members. -/
theorem put (h : MembersHave P props) (he : P e) : MembersHave P (OrderedMap.put props k e) := by
  refine ⟨OrderedMap.nodup_keys_put h.keys k e, fun p hp => ?_⟩
  rcases OrderedMap.eq_or_mem_of_mem_put hp with rfl | hp
  · exact he
  · exact h.entities p hp

/-- So does putting one only where there is none. -/
theorem putIfAbsent (h : MembersHave P props) (he : P e) : MembersHave P (OrderedMap.putIfAbsent props k e) := by
  unfold OrderedMap.putIfAbsent
  split
  · exact h
  · exact h.put he

/-- Whatever pairs are written in a row, their keys end up distinct. -/
theorem ofList {pairs : List (String × Entity)} (h : ∀ p ∈ pairs, P p.2) :
    MembersHave P (OrderedMap.ofList pairs) := by
  refine ⟨OrderedMap.nodup_keys_ofList pairs, fun p hp => ?_⟩
  rcases OrderedMap.mem_or_mem_of_mem_update hp with hp | hp
  · exact absurd hp List.not_mem_nil
  · exact h p hp

/-- What is found under a name has the property. -/
theorem lookup (h : MembersHave P props) (hl : props.lookup k = some e) : P e := by
  obtain ⟨before, after, rfl, -⟩ := List.lookup_eq_some_iff.1 hl
  exact h.entities (k, e) (by simp)

end MembersHave

/-- All exports of a module have a property, and their names are distinct. -/
structure Surface.Has (s : Surface) (P : Entity → Prop) : Prop where
  named : MembersHave P s.named
  default : ∀ props, s.default? = some props → MembersHave P props

/-! ## Modules that keep a property -/

/-- What it takes for the exports of a module to have the property `P`, if the nodes that they are read from are known to
have the property `T`. -/
structure Scope.Keeps (scope : Scope) (P : Entity → Prop) (T : Node → Prop) : Prop where
  unknown : P .unknown
  function (n : Node) : P (.ofFunction n)
  object {props : OrderedMap Entity} : MembersHave P props → P (.object props)
  /-- What a getter gives stands for its value. -/
  result (n : Node) : P (.constant (resultValue n))
  literal {n : Node} {text : String} : T n → Literal.serialize scope.table n = some text → P (.constant text)
  children {n c : Node} {f : Form} : T n → n.isForm f = true → f ≠ .jsxAttribute → c ∈ n.children → T c
  initial : ∀ name node value, scope.table.lookup name = some (.variable node (some value)) → T value
  link : ∀ source s, scope.link source = some s → s.Has P

namespace Scope.Keeps

variable {scope : Scope} {P : Entity → Prop} {T : Node → Prop}

section Parts

variable (h : scope.Keeps P T)

include h

/-! ## Nodes -/

/-- The property of nodes passes to children, attributes of markup apart. -/
theorem form_children {f : Form} {l : Option Label} {e : Extent} {m : Bool} {cs : List Node}
    (hn : T (.mk (.form f) l e m cs)) (hf : f ≠ .jsxAttribute) : ∀ c ∈ cs, T c := fun _ hc =>
  h.children hn (by simp [Node.isForm, Node.kind]) hf hc

/-- It passes through wrappers. -/
theorem unwrap {n : Node} (hn : T n) : T n.unwrap := by
  fun_induction Node.unwrap n with
  | case1 n hw c hc ih =>
    refine ih ?_
    have hmem := Node.mem_children_of_head?_codeChildren hc
    simp only [Node.isWrapper, Bool.or_eq_true] at hw
    obtain ((hw | hw) | hw) | hw := hw
    · exact h.children hn hw (by decide) hmem
    · exact h.children hn hw (by decide) hmem
    · exact h.children hn hw (by decide) hmem
    · exact h.children hn hw (by decide) hmem
  | case2 => exact hn
  | case3 => exact hn

/-- It passes to what an ambient declaration declares. -/
theorem unwrapAmbient {n : Node} (hn : T n) : T (ModuleView.unwrapAmbient n) := by
  fun_induction ModuleView.unwrapAmbient n with
  | case1 n hf c hc ih => exact ih (h.children hn hf (by decide) (Node.mem_children_of_head?_codeChildren hc))
  | case2 => exact hn
  | case3 => exact hn

/-! ## Names -/

/-- What a module exports under any name has the property. -/
theorem entity {s : Surface} (hs : s.Has P) (name : String) : P (s.entity name) := by
  unfold Surface.entity
  split
  · refine h.object ?_
    unfold Surface.namespaceProps
    split
    · rename_i props hd
      exact hs.named.put (h.object (hs.default props hd))
    · exact hs.named
  · split
    · rename_i e hl
      exact hs.named.lookup hl
    · split
      · rename_i props hd
        split
        · exact h.object (hs.default props hd)
        · exact h.unknown
      · exact h.unknown

/-- What another module exports has the property. -/
theorem entityFrom (source name : String) : P (entityFrom (scope.link source) name) := by
  unfold ModuleMock.entityFrom
  split
  · rename_i s hs
    exact h.entity (h.link source s hs) name
  · exact h.unknown

/-- Every name resolves to an entity with the property, whatever budget is left. -/
theorem resolveWithin : ∀ (budget : Nat) (resolving : List String) (name : String),
    P (scope.resolveWithin budget resolving name)
  | 0, _, _ => h.unknown
  | budget + 1, resolving, name => by
    rw [Scope.resolveWithin]
    split
    · exact h.unknown
    · split
      · exact h.unknown
      · exact h.unknown
      · rename_i node value hl
        dsimp only
        split
        · exact h.function _
        · split
          · rename_i text ht
            exact h.literal (h.unwrap (h.initial name node value hl)) ht
          · split
            · exact resolveWithin budget _ _
            · exact h.unknown
      · exact h.function _
      · exact h.entityFrom _ _

/-- What a name of the module stands for has the property. -/
theorem resolve (name : String) : P (scope.resolve name) := h.resolveWithin _ _ _

/-! ## Values -/

/-- A literal has the property, and so has what stands in for one. -/
theorem literalOr {n : Node} (hn : T n) {e : Entity} (he : P e) : P (scope.literalOr n e) := by
  unfold Scope.literalOr
  split
  · rename_i text ht
    exact h.literal hn ht
  · exact he

theorem putMethod {props : OrderedMap Entity} (hp : MembersHave P props) (method : Node) :
    MembersHave P (Scope.putMethod props method) := by
  unfold Scope.putMethod
  split
  · exact hp
  · split
    · exact hp.put (h.result method)
    · split
      · exact hp.putIfAbsent h.unknown
      · exact hp.put (h.function method)

end Parts

mutual

/-- What a value stands for has the property. -/
theorem classify (h : scope.Keeps P T) : ∀ n : Node, T n → P (scope.classify n)
  | .mk k l e m cs, hn => by
    rw [Scope.classify.eq_def]
    dsimp only
    split
    · exact h.classifyFirst cs (h.form_children hn (by decide))
    · exact h.classifyFirst cs (h.form_children hn (by decide))
    · exact h.classifyFirst cs (h.form_children hn (by decide))
    · exact h.classifyFirst cs (h.form_children hn (by decide))
    · exact h.function _
    · exact h.function _
    · exact h.function _
    · exact h.object (h.expand cs [] (h.form_children hn (by decide)) .nil)
    · exact h.literalOr hn (h.resolve _)
    · exact h.literalOr hn h.unknown

theorem classifyFirst (h : scope.Keeps P T) : ∀ cs : List Node, (∀ c ∈ cs, T c) → P (scope.classifyFirst cs)
  | [], _ => h.unknown
  | c :: cs, hcs => by
    rw [Scope.classifyFirst]
    split
    · exact h.classify c (hcs c List.mem_cons_self)
    · exact h.classifyFirst cs fun d hd => hcs d (List.mem_cons_of_mem _ hd)

/-- The members of an object literal have the property, next to any that have it. -/
theorem expand (h : scope.Keeps P T) : ∀ (cs : List Node) (props : OrderedMap Entity), (∀ c ∈ cs, T c) →
    MembersHave P props → MembersHave P (scope.expand props cs)
  | [], props, _, hp => hp
  | .mk k l e m cs :: rest, props, hcs, hp => by
    have hrest : ∀ d ∈ rest, T d := fun d hd => hcs d (List.mem_cons_of_mem _ hd)
    have hn := hcs _ List.mem_cons_self
    rw [Scope.expand.eq_def]
    dsimp only
    split
    · exact h.expand rest _ hrest (h.putMethod hp _)
    · split
      · rename_i key value _ hvalue
        exact h.expand rest _ hrest (hp.put (h.memberEntity cs (h.form_children hn (by decide)) value hvalue))
      · exact h.expand rest _ hrest hp
    · exact h.expand rest _ hrest (hp.put (h.resolve _))
    · exact h.expand rest _ hrest hp

theorem memberEntity (h : scope.Keeps P T) : ∀ cs : List Node, (∀ c ∈ cs, T c) →
    ∀ e, scope.memberEntity cs = some e → P e
  | [], _, e, he => by cases he
  | c :: cs, hcs, e, he => by
    rw [Scope.memberEntity] at he
    split at he
    · obtain rfl := Option.some.inj he
      exact h.classify c (hcs c List.mem_cons_self)
    · exact h.memberEntity cs (fun d hd => hcs d (List.mem_cons_of_mem _ hd)) e he

end

end Scope.Keeps

/-! ## Export statements -/

namespace ModuleView

variable {v : ModuleView} {statement : Node} {P : Entity → Prop} {T : Node → Prop}

/-- The declaration of an export statement is one of its children. -/
theorem mem_children_of_formOf {d : Node} (h : formOf statement = .declaration d) : d ∈ statement.children := by
  unfold formOf at h
  split at h
  · cases h
  · split at h
    · rename_i d' hd
      obtain rfl := ExportForm.declaration.inj h
      exact List.mem_of_find?_eq_some hd
    · split at h
      · cases h
      · split at h
        · split at h <;> cases h
        · split at h
          · split at h <;> cases h
          · cases h

/-- The subject of a default export is a child of the statement. -/
theorem mem_children_of_defaultSubject? {n : Node} (h : defaultSubject? statement = some n) :
    n ∈ statement.children := by
  rw [defaultSubject?, Option.orElse_eq_orElse, Option.orElse_eq_or, Option.or_eq_some_iff] at h
  rcases h with h | ⟨-, h⟩
  · exact List.mem_of_find?_eq_some h
  · exact List.mem_of_find?_eq_some h

section Statements

variable (h : v.toScope.Keeps P T)

include h

theorem has_declaratorPair? {d : Node} (hd : T d) {p : String × Entity} (hp : p ∈ (v.declaratorPair? d).toList) :
    P p.2 := by
  unfold declaratorPair? at hp
  split at hp
  · rename_i hform
    split at hp
    · split at hp
      · obtain rfl := List.mem_singleton.1 hp
        dsimp only
        split
        · rename_i value hv
          exact h.classify value (h.children hd hform (by decide) (List.mem_of_find?_eq_some hv))
        · exact h.unknown
      · cases hp
    · cases hp
  · cases hp

/-- A declaration exports entities with the property. -/
theorem has_declarationPairs {d : Node} (hd : T d) {p : String × Entity} (hp : p ∈ v.declarationPairs d) : P p.2 := by
  have hn := h.unwrapAmbient hd
  unfold declarationPairs at hp
  dsimp only at hp
  split at hp
  · rename_i hform
    obtain ⟨c, hc, hp⟩ := List.mem_flatMap.1 hp
    have hmem : c ∈ (unwrapAmbient d).children := (List.mem_filter.1 hc).1
    rcases Bool.or_eq_true_iff.1 hform with hform | hform
    · exact has_declaratorPair? h (h.children hn hform (by decide) hmem) hp
    · exact has_declaratorPair? h (h.children hn hform (by decide) hmem) hp
  · split at hp
    · obtain ⟨name, -, rfl⟩ := Option.map_eq_some_iff.1 (Option.mem_toList.1 hp)
      exact h.function _
    · cases hp

variable (ht : T statement) (hs : statement.isForm .exportStatement = true)

include ht hs

/-- What a statement writes has the property. -/
theorem has_pairs {taken : Bool} {p : String × Entity} (hp : p ∈ v.pairs taken statement) : P p.2 := by
  unfold pairs at hp
  cases hf : formOf statement with
  | default =>
    rw [hf] at hp
    dsimp only at hp
    split at hp
    · cases hp
    · obtain ⟨n, -, hn⟩ := Option.bind_eq_some_iff.1 (Option.mem_toList.1 hp)
      split at hn
      · obtain ⟨name, -, rfl⟩ := Option.map_eq_some_iff.1 hn
        exact h.function _
      · cases hn
  | declaration d =>
    rw [hf] at hp
    exact has_declarationPairs h (h.children ht hs (by decide) (mem_children_of_formOf hf)) hp
  | list clause source =>
    rw [hf] at hp
    obtain ⟨q, -, rfl⟩ := List.mem_map.1 hp
    cases source with
    | none => exact h.resolve _
    | some source => exact h.entityFrom source _
  | whole n source =>
    rw [hf] at hp
    dsimp only [wholePairs] at hp
    split at hp
    · obtain rfl := List.mem_singleton.1 hp
      exact h.entityFrom _ _
    · cases hp
  | wildcard source =>
    rw [hf] at hp
    dsimp only [wildcardPairs] at hp
    split at hp
    · rename_i target hl
      exact (h.link source target hl).named.entities p hp
    · cases hp
  | types => rw [hf] at hp; cases hp
  | nothing => rw [hf] at hp; cases hp

/-- What a default export keeps apart has the property too. -/
theorem membersHave_statementDefault? {props : OrderedMap Entity} (hd : v.statementDefault? statement = some props) :
    MembersHave P props := by
  unfold statementDefault? at hd
  split at hd
  · obtain ⟨n, hsubject, hn⟩ := Option.bind_eq_some_iff.1 hd
    split at hn
    · obtain ⟨name, -, rfl⟩ := Option.map_eq_some_iff.1 hn
      exact .singleton (h.function _)
    · split at hn
      · rename_i hform
        obtain rfl := Option.some.inj hn
        have hunwrap := h.unwrap (h.children ht hs (by decide) (mem_children_of_defaultSubject? hsubject))
        exact h.expand _ [] (fun c hc => h.children hunwrap hform (by decide) hc) .nil
      · split at hn
        · obtain rfl := Option.some.inj hn
          exact .singleton (h.resolve _)
        · cases hn
  · cases hd

end Statements

/-- A statement list exports entities with the property. -/
theorem has_pairsFrom (h : v.toScope.Keeps P T) : ∀ (taken : Bool) (statements : List Node),
    (∀ n ∈ statements, T n ∧ n.isForm .exportStatement = true) → ∀ p ∈ v.pairsFrom taken statements, P p.2
  | _, [], _, p, hp => by cases hp
  | taken, statement :: rest, ht, p, hp => by
    obtain ⟨⟨hn, hf⟩, hrest⟩ := List.forall_mem_cons.1 ht
    rw [pairsFrom] at hp
    rcases List.mem_append.1 hp with hp | hp
    · exact has_pairs h hn hf hp
    · exact has_pairsFrom h _ rest hrest p hp

/-- The exports of a module have a property that it keeps. -/
theorem has_surface (h : v.toScope.Keeps P T) {root : Node} (ht : ∀ n ∈ exportStatements root, T n) :
    (v.surface root).Has P := by
  have hstatements : ∀ n ∈ exportStatements root, T n ∧ n.isForm .exportStatement = true := fun n hn =>
    ⟨ht n hn, (List.mem_filter.1 hn).2⟩
  constructor
  · rw [named_surface]
    exact .ofList (has_pairsFrom h _ _ hstatements)
  · intro props hp
    rw [default?_surface] at hp
    obtain ⟨statement, hmem, hd⟩ := List.exists_of_findSome?_eq_some hp
    obtain ⟨hn, hf⟩ := hstatements statement hmem
    exact membersHave_statementDefault? h hn hf hd

end ModuleView

end ModuleMock
