import Mathlib.Data.List.Induction
import ModuleMock.Proofs.Declaration.Bindings
import ModuleMock.Proofs.Syntax.Preorder

/-!
# The table of declarations in preorder

`Declares` says where in a tree a name is declared, and as what: by a declarator, a function or the binding of an
import, each at its own address. A tree lists its bindings in preorder (`listedBy_bindings`), and therefore its table has
for each name the last declaration in preorder (`ofTree_last_in_preorder`).
-/

namespace ModuleMock

open Syntax

/-! ## Where names are declared -/

/-- A part of an import clause binds a name at an address below it, from the module that is named: as `default`, as a
whole, or by the name that it has there. -/
inductive PartBinds (source : String) (part : Node) : Address → String → Declaration → Prop
  | byDefault (hform : part.isForm .identifier = true) :
      PartBinds source part [] part.text (.imported source "default")
  | whole {k : Nat} {name : Node} (hform : part.isForm .namespaceImport = true) (hname : part.children[k]? = some name)
      (hid : name.isForm .identifier = true) : PartBinds source part [k] name.text (.imported source "*")
  | named {k : Nat} {specifier name : Node} (hform : part.isForm .namedImports = true)
      (hchild : part.children[k]? = some specifier) (hspecifier : specifier.isForm .importSpecifier = true)
      (hname : specifier.child? .name = some name) (hplain : specifier.child? .asName = none) :
      PartBinds source part [k] (moduleName name) (.imported source (moduleName name))
  | renamed {k : Nat} {specifier name other : Node} (hform : part.isForm .namedImports = true)
      (hchild : part.children[k]? = some specifier) (hspecifier : specifier.isForm .importSpecifier = true)
      (hname : specifier.child? .name = some name) (hother : specifier.child? .asName = some other) :
      PartBinds source part [k] other.text (.imported source (moduleName name))

/-- A name is declared at an address below a node. Patterns declare nothing, and of what stands inside an import
statement only its bindings count. -/
inductive Declares : Node → Address → String → Declaration → Prop
  | declarator {n name : Node} (hform : n.isForm .variableDeclarator = true) (hname : n.child? .name = some name)
      (hid : name.isForm .identifier = true) : Declares n [] name.text (.variable n (n.child? .value))
  | function {n name : Node} (hform : isFunctionDeclaration n = true) (hname : n.child? .name = some name) :
      Declares n [] name.text (.function n)
  | imported {n source clause part : Node} {i j : Nat} {a : Address} {x : String} {d : Declaration}
      (hform : n.isForm .importStatement = true) (hsource : n.child? .source = some source)
      (hclause : n.children[i]? = some clause) (hc : clause.isForm .importClause = true)
      (hpart : clause.children[j]? = some part) (hbinds : PartBinds source.stringValue part a x d) :
      Declares n (i :: j :: a) x d
  | inner {n c : Node} {i : Nat} {a : Address} {x : String} {d : Declaration}
      (hform : n.isForm .importStatement = false) (hc : n.children[i]? = some c) (h : Declares c a x d) :
      Declares n (i :: a) x d

/-! ## Bindings of imports -/

section Imports

variable {α : Type}

theorem isNamed_of_isForm {n : Node} {f : Form} (h : n.isForm f = true) : n.isNamed = true := by
  rw [Node.isForm, beq_iff_eq] at h
  simp [Node.isNamed, h]

/-- Tokens can be left in where they give nothing. -/
theorem flatMap_namedChildren (n : Node) {f : Node → List α} (h : ∀ c, c.isNamed = false → f c = []) :
    n.namedChildren.flatMap f = n.children.flatMap f := by
  unfold Node.namedChildren
  induction n.children with
  | nil => rfl
  | cons c cs ih =>
    cases hc : c.isNamed with
    | true => rw [List.filter_cons_of_pos hc, List.flatMap_cons, List.flatMap_cons, ih]
    | false => rw [List.filter_cons_of_neg (by simp [hc]), List.flatMap_cons, h c hc, ih, List.nil_append]

theorem flatMap_filter_namedChildren (n : Node) (form : Form) (f : Node → List α) :
    (n.namedChildren.filter (·.isForm form)).flatMap f =
      n.children.flatMap fun c => if c.isForm form then f c else [] := by
  rw [← flatMap_namedChildren n fun c hc => if_neg fun hform => by simp [isNamed_of_isForm hform] at hc]
  induction n.namedChildren with
  | nil => rfl
  | cons c cs ih =>
    cases hc : c.isForm form with
    | true => rw [List.filter_cons_of_pos hc, List.flatMap_cons, List.flatMap_cons, ih, if_pos hc]
    | false =>
      rw [List.filter_cons_of_neg (by simp [hc]), List.flatMap_cons, if_neg (by simp [hc]), ih, List.nil_append]

/-- A node has one form only. -/
theorem isForm_of_isForm {n : Node} {f g : Form} (h : n.isForm f = true) (hfg : f ≠ g) : n.isForm g = false := by
  rw [Node.isForm, beq_iff_eq] at h
  simpa [Node.isForm, h] using hfg

theorem ListedBy.option (o : Option α) : ListedBy (fun a x => a = [] ∧ o = some x) o.toList := by
  cases o with
  | none => exact .nil (by simp)
  | some y => exact (ListedBy.singleton y).congr fun a x => by simp [eq_comm]

/-- The children of one form list what they list, the others nothing. -/
theorem ListedBy.ofForm {P : Node → Address → α → Prop} {f : Node → List α} (n : Node) (form : Form)
    (h : ∀ c ∈ n.children, ListedBy (P c) (f c)) :
    ListedBy (fun a x => ∃ i c b, a = i :: b ∧ n.children[i]? = some c ∧ c.isForm form = true ∧ P c b x)
      ((n.namedChildren.filter (·.isForm form)).flatMap f) := by
  rw [flatMap_filter_namedChildren]
  refine ListedBy.below n.children fun c hc => ?_
  cases hform : c.isForm form with
  | true => exact (h c hc).congr fun a x => by simp
  | false => exact .nil (by simp)

/-- What an import specifier binds. -/
theorem specifierBinding?_eq_some {source : String} {n : Node} {p : String × Declaration} :
    specifierBinding? source n = some p ↔ n.isForm .importSpecifier = true ∧ ∃ name, n.child? .name = some name ∧
      p = ((n.child? .asName).elim (moduleName name) Node.text, .imported source (moduleName name)) := by
  unfold specifierBinding?
  cases n.isForm .importSpecifier with
  | false => simp
  | true =>
    cases n.child? .name with
    | none => simp
    | some name => cases n.child? .asName <;> simp [eq_comm]

section Parts

variable {source x : String} {part : Node} {a : Address} {d : Declaration}

/-- A name in an import clause binds the default. -/
theorem partBinds_identifier (h : part.isForm .identifier = true) :
    PartBinds source part a x d ↔ a = [] ∧ (x, d) = (part.text, .imported source "default") := by
  constructor
  · intro hb
    cases hb with
    | byDefault => exact ⟨rfl, rfl⟩
    | whole hform => simp [isForm_of_isForm h (g := .namespaceImport) (by decide)] at hform
    | named hform => simp [isForm_of_isForm h (g := .namedImports) (by decide)] at hform
    | renamed hform => simp [isForm_of_isForm h (g := .namedImports) (by decide)] at hform
  · rintro ⟨rfl, hp⟩
    cases hp
    exact .byDefault h

/-- A namespace import binds the whole module. -/
theorem partBinds_namespaceImport (h : part.isForm .namespaceImport = true) :
    PartBinds source part a x d ↔ ∃ k name b, a = k :: b ∧ part.children[k]? = some name ∧
      name.isForm .identifier = true ∧ b = [] ∧ (x, d) = (name.text, .imported source "*") := by
  constructor
  · intro hb
    cases hb with
    | byDefault hform => simp [isForm_of_isForm h (g := .identifier) (by decide)] at hform
    | @whole k name _ hname hid => exact ⟨k, name, [], rfl, hname, hid, rfl, rfl⟩
    | named hform => simp [isForm_of_isForm h (g := .namedImports) (by decide)] at hform
    | renamed hform => simp [isForm_of_isForm h (g := .namedImports) (by decide)] at hform
  · rintro ⟨k, name, b, rfl, hname, hid, rfl, hp⟩
    cases hp
    exact .whole h hname hid

/-- Named imports bind what their specifiers do. -/
theorem partBinds_namedImports (h : part.isForm .namedImports = true) :
    PartBinds source part a x d ↔ ∃ k specifier b, a = k :: b ∧ part.children[k]? = some specifier ∧
      b = [] ∧ specifierBinding? source specifier = some (x, d) := by
  constructor
  · intro hb
    cases hb with
    | byDefault hform => simp [isForm_of_isForm h (g := .identifier) (by decide)] at hform
    | whole hform => simp [isForm_of_isForm h (g := .namespaceImport) (by decide)] at hform
    | @named k specifier name _ hchild hspecifier hname hplain =>
      refine ⟨k, specifier, [], rfl, hchild, rfl, specifierBinding?_eq_some.2 ⟨hspecifier, name, hname, ?_⟩⟩
      rw [hplain]
      rfl
    | @renamed k specifier name other _ hchild hspecifier hname hother =>
      refine ⟨k, specifier, [], rfl, hchild, rfl, specifierBinding?_eq_some.2 ⟨hspecifier, name, hname, ?_⟩⟩
      rw [hother]
      rfl
  · rintro ⟨k, specifier, b, rfl, hchild, rfl, hp⟩
    obtain ⟨hspecifier, name, hname, hp⟩ := specifierBinding?_eq_some.1 hp
    cases hother : specifier.child? .asName with
    | none =>
      rw [hother] at hp
      cases hp
      exact .named h hchild hspecifier hname hother
    | some other =>
      rw [hother] at hp
      cases hp
      exact .renamed h hchild hspecifier hname hother

/-- Nothing else in an import clause binds a name. -/
theorem not_partBinds (h : part.isForm .identifier = false) (h' : part.isForm .namespaceImport = false)
    (h'' : part.isForm .namedImports = false) : ¬ PartBinds source part a x d := by
  intro hb
  cases hb with
  | byDefault hform => simp [h] at hform
  | whole hform => simp [h'] at hform
  | named hform => simp [h''] at hform
  | renamed hform => simp [h''] at hform

end Parts

/-- The bindings of an import clause are listed in the order of the text. -/
theorem listedBy_clauseBindings (source : String) (part : Node) :
    ListedBy (fun a p => PartBinds source part a p.1 p.2) (clauseBindings source part) := by
  unfold clauseBindings
  cases hid : part.isForm .identifier with
  | true => exact (ListedBy.singleton _).congr fun a p => (partBinds_identifier hid).symm
  | false =>
    cases hwhole : part.isForm .namespaceImport with
    | true =>
      rw [if_neg (by simp), if_pos rfl, List.map_eq_flatMap]
      exact (ListedBy.ofForm part .identifier fun c _ => ListedBy.singleton _).congr fun a p =>
        (partBinds_namespaceImport hwhole).symm
    | false =>
      cases hnamed : part.isForm .namedImports with
      | true =>
        have htoken : ∀ c : Node, c.isNamed = false → (specifierBinding? source c).toList = [] := by
          intro c hc
          have hform : c.isForm .importSpecifier = false :=
            Bool.eq_false_iff.2 fun h => by simp [isNamed_of_isForm h] at hc
          simp [specifierBinding?, hform]
        rw [if_neg (by simp), if_neg (by simp), if_pos rfl, List.filterMap_eq_flatMap_toList,
          flatMap_namedChildren part htoken]
        exact (ListedBy.below part.children fun c _ => ListedBy.option _).congr fun a p =>
          (partBinds_namedImports hnamed).symm
      | false => exact ListedBy.nil fun a p => not_partBinds hid hwhole hnamed

end Imports

/-! ## Bindings of trees -/

section Trees

variable {n : Node} {a : Address} {x : String} {d : Declaration}

/-- A declaration of a function is of one of three forms, none of which is that of an import. -/
theorem isFunctionDeclaration_of_isForm {f : Form} (h : n.isForm f = true)
    (hf : f ≠ .functionDeclaration ∧ f ≠ .generatorFunctionDeclaration ∧ f ≠ .functionSignature) :
    isFunctionDeclaration n = false := by
  simp [isFunctionDeclaration, isForm_of_isForm h hf.1, isForm_of_isForm h hf.2.1, isForm_of_isForm h hf.2.2]

/-- An import statement declares what the parts of its clauses bind. -/
theorem declares_importStatement (h : n.isForm .importStatement = true) :
    Declares n a x d ↔ ∃ source, n.child? .source = some source ∧ ∃ i clause b, a = i :: b ∧
      n.children[i]? = some clause ∧ clause.isForm .importClause = true ∧ ∃ j part c, b = j :: c ∧
      clause.children[j]? = some part ∧ PartBinds source.stringValue part c x d := by
  constructor
  · intro hd
    cases hd with
    | declarator hform => simp [isForm_of_isForm h (g := .variableDeclarator) (by decide)] at hform
    | function hform => simp [isFunctionDeclaration_of_isForm h (by decide)] at hform
    | imported _ hsource hclause hc hpart hbinds =>
      exact ⟨_, hsource, _, _, _, rfl, hclause, hc, _, _, _, rfl, hpart, hbinds⟩
    | inner hform => simp [h] at hform
  · rintro ⟨source, hsource, i, clause, b, rfl, hclause, hc, j, part, c, rfl, hpart, hbinds⟩
    exact .imported h hsource hclause hc hpart hbinds

/-- The bindings of an import statement are listed in the order of the text. -/
theorem listedBy_importBindings (h : n.isForm .importStatement = true) :
    ListedBy (fun a p => Declares n a p.1 p.2) (importBindings n) := by
  unfold importBindings
  cases hsource : n.child? .source with
  | none => exact .nil fun a p hd => by simp [declares_importStatement h, hsource] at hd
  | some source =>
    have htoken : ∀ c : Node, c.isNamed = false → clauseBindings source.stringValue c = [] := by
      intro c hc
      have hform : ∀ f : Form, c.isForm f = false :=
        fun f => Bool.eq_false_iff.2 fun h => by simp [isNamed_of_isForm h] at hc
      simp [clauseBindings, hform]
    have hclause : ∀ clause : Node, ListedBy (fun a p => ∃ j part c, a = j :: c ∧ clause.children[j]? = some part ∧
        PartBinds source.stringValue part c p.1 p.2)
        (clause.namedChildren.flatMap (clauseBindings source.stringValue)) := by
      intro clause
      rw [flatMap_namedChildren clause htoken]
      exact ListedBy.below clause.children fun part _ => listedBy_clauseBindings source.stringValue part
    refine (ListedBy.ofForm n .importClause fun clause _ => hclause clause).congr fun a p => ?_
    rw [declares_importStatement h, hsource]
    simp

/-- A node outside of imports declares what it declares itself, and what its children declare. -/
theorem declares_iff (h : n.isForm .importStatement = false) :
    Declares n a x d ↔ a = [] ∧ (x, d) ∈ ownBindings n ∨
      ∃ i c b, a = i :: b ∧ n.children[i]? = some c ∧ Declares c b x d := by
  constructor
  · intro hd
    cases hd with
    | @declarator _ name hform hname hid => exact .inl ⟨rfl, by simp [ownBindings, hform, hname, hid]⟩
    | @function _ name hform hname =>
      have hvar : n.isForm .variableDeclarator = false := by
        refine Bool.eq_false_iff.2 fun hvar => ?_
        simp [isFunctionDeclaration_of_isForm hvar (by decide)] at hform
      exact .inl ⟨rfl, by simp [ownBindings, hvar, hform, hname]⟩
    | imported hform => simp [h] at hform
    | inner _ hc hd => exact .inr ⟨_, _, _, rfl, hc, hd⟩
  · rintro (⟨rfl, hp⟩ | ⟨i, c, b, rfl, hc, hd⟩)
    · unfold ownBindings at hp
      split at hp
      · rename_i hform
        split at hp
        · rename_i name hname
          split at hp
          · rename_i hid
            cases List.mem_singleton.1 hp
            exact .declarator hform hname hid
          · cases hp
        · cases hp
      · split at hp
        · rename_i hform
          split at hp
          · rename_i name hname
            cases List.mem_singleton.1 hp
            exact .function hform hname
          · cases hp
        · rw [if_neg (by simp [h])] at hp
          cases hp
    · exact .inner h hc hd

/-- No node but an import binds more than one name. -/
theorem length_ownBindings (h : n.isForm .importStatement = false) : (ownBindings n).length ≤ 1 := by
  unfold ownBindings
  rw [h]
  split
  · split
    · split
      · simp
      · simp
    · simp
  · split
    · split
      · simp
      · simp
    · simp

/-- A tree lists its bindings in preorder. -/
theorem listedBy_bindings (n : Node) : ListedBy (fun a p => Declares n a p.1 p.2) (bindings n) := by
  obtain ⟨k, l, e, m, cs⟩ := n
  rw [bindings]
  split
  · rename_i hk
    have hform : (Node.mk k l e m cs).isForm .importStatement = true := by simp [Node.isForm, Node.kind, hk]
    have hown : ownBindings (.mk k l e m cs) = importBindings (.mk k l e m cs) := by
      simp [ownBindings, hform, isForm_of_isForm hform (g := .variableDeclarator) (by decide),
        isFunctionDeclaration_of_isForm hform (by decide)]
    rw [hown, List.append_nil]
    exact listedBy_importBindings hform
  · rename_i hk
    have hform : (Node.mk k l e m cs).isForm .importStatement = false := by simpa [Node.isForm, Node.kind] using hk
    have hbelow := ListedBy.below cs fun c hc => listedBy_bindings c
    have hlength := length_ownBindings hform
    rw [bindingsAll_eq]
    rcases hown : ownBindings (.mk k l e m cs) with _ | ⟨q, _ | ⟨r, rest⟩⟩
    · exact hbelow.congr fun a p => by simp [declares_iff hform, hown, Node.children]
    · exact (hbelow.cons (by simp) q).congr fun a p => by simp [declares_iff hform, hown, Node.children]
    · simp [hown] at hlength
termination_by n
decreasing_by
  have := List.sizeOf_lt_of_mem hc
  simp only [Node.mk.sizeOf_spec]
  omega

end Trees

/-! ## Tables -/

section Tables

variable {α : Type} {P : Address → String × α → Prop} {pairs : List (String × α)} {x : String} {v : α}

theorem ListedBy.mem_keys (h : ListedBy P pairs) :
    x ∈ OrderedMap.keys (OrderedMap.ofList pairs) ↔ ∃ a v, P a (x, v) := by
  obtain ⟨sites, -, hmem, rfl⟩ := h
  rw [OrderedMap.mem_keys_ofList]
  simp [OrderedMap.keys, ← hmem]

/-- A value that is looked up is the last one, in preorder. -/
theorem ListedBy.last_of_lookup (h : ListedBy P pairs) (hl : (OrderedMap.ofList pairs).lookup x = some v) :
    ∃ a, P a (x, v) ∧ ∀ b v', P b (x, v') → b = a ∨ Precedes b a := by
  obtain ⟨sites, hsorted, hmem, rfl⟩ := h
  rw [OrderedMap.lookup_ofList] at hl
  obtain ⟨after, before, hsplit, hafter⟩ := List.lookup_eq_some_iff.1 hl
  rw [List.reverse_eq_iff, List.reverse_append, List.reverse_cons, List.append_assoc, List.singleton_append,
    List.map_eq_append_iff] at hsplit
  obtain ⟨first, rest, rfl, -, hrest⟩ := hsplit
  obtain ⟨⟨a, p⟩, last, rfl, rfl, hlast⟩ := List.map_eq_cons_iff.1 hrest
  refine ⟨a, (hmem a _).1 (by simp), fun b v' hb => ?_⟩
  obtain ⟨-, -, hbefore⟩ := List.pairwise_append.1 hsorted
  rcases List.mem_append.1 ((hmem b _).2 hb) with hb | hb
  · exact .inr (hbefore _ hb _ List.mem_cons_self)
  · rcases List.mem_cons.1 hb with hb | hb
    · exact .inl (Prod.mk.inj hb).1
    · have hkey : (x, v') ∈ after := by
        rw [← List.mem_reverse, ← hlast]
        exact List.mem_map.2 ⟨_, hb, rfl⟩
      simpa using hafter _ hkey

/-- What is found for a key is what stands last for it. -/
theorem ListedBy.lookup (h : ListedBy P pairs) : (OrderedMap.ofList pairs).lookup x = some v ↔
    ∃ a, P a (x, v) ∧ ∀ b v', P b (x, v') → b = a ∨ Precedes b a := by
  refine ⟨h.last_of_lookup, ?_⟩
  rintro ⟨a, ha, hlast⟩
  have hkey : x ∈ OrderedMap.keys (OrderedMap.ofList pairs) := h.mem_keys.2 ⟨a, v, ha⟩
  cases hl : (OrderedMap.ofList pairs).lookup x with
  | none =>
    rw [OrderedMap.lookup_ofList, OrderedMap.lookup_reverse_eq_none_iff, ← OrderedMap.mem_keys_ofList] at hl
    exact absurd hkey hl
  | some v' =>
    obtain ⟨b, hb, hlast'⟩ := h.last_of_lookup hl
    obtain rfl : b = a := Precedes.antisymm (hlast b v' hb) (hlast' a v ha)
    rw [(Prod.mk.inj (h.unique hb ha)).2]

/-- Keys stand in the order in which they occur first. One more pair keeps this: a key that is new occurs after all
others, and an old one stays where it is. -/
theorem ListedBy.pairwise_keys (h : ListedBy P pairs) : (OrderedMap.keys (OrderedMap.ofList pairs)).Pairwise
    fun x y => ∃ a v, P a (x, v) ∧ ∀ b v', P b (y, v') → Precedes a b := by
  obtain ⟨sites, hsorted, hmem, rfl⟩ := h
  simp only [← hmem]
  clear hmem
  induction sites using List.reverseRecOn with
  | nil => exact .nil
  | append_singleton sites t ih =>
    obtain ⟨hsites, -, hlater⟩ := List.pairwise_append.1 hsorted
    have hlater : ∀ s ∈ sites, Precedes s.1 t.1 := fun s hs => hlater s hs t List.mem_cons_self
    have hold := (ih hsites).imp (S := fun x y => ∃ a v, (a, x, v) ∈ sites ++ [t] ∧
        ∀ b v', (b, y, v') ∈ sites ++ [t] → Precedes a b) fun {x y} hxy => by
      obtain ⟨a, v, ha, hxy⟩ := hxy
      refine ⟨a, v, List.mem_append_left _ ha, fun b v' hb => ?_⟩
      rcases List.mem_append.1 hb with hb | hb
      · exact hxy b v' hb
      · rw [← List.mem_singleton.1 hb] at hlater
        exact hlater _ ha
    have hput : OrderedMap.ofList ((sites ++ [t]).map Prod.snd) =
        OrderedMap.put (OrderedMap.ofList (sites.map Prod.snd)) t.2.1 t.2.2 := by
      rw [List.map_append, OrderedMap.ofList, OrderedMap.update_append]
      rfl
    rw [hput, OrderedMap.keys_put]
    split
    · exact hold
    · rename_i hnew
      refine List.pairwise_append.2 ⟨hold, List.pairwise_singleton _ _, fun x hx y hy => ?_⟩
      obtain rfl := List.mem_singleton.1 hy
      obtain ⟨s, hs, rfl⟩ : ∃ s ∈ sites, s.2.1 = x := by
        simpa [OrderedMap.keys] using OrderedMap.mem_keys_ofList.1 hx
      refine ⟨s.1, s.2.2, List.mem_append_left _ hs, fun b v' hb => ?_⟩
      rcases List.mem_append.1 hb with hb | hb
      · refine absurd (OrderedMap.mem_keys_ofList.2 ?_) hnew
        exact List.mem_map.2 ⟨_, List.mem_map.2 ⟨_, hb, rfl⟩, rfl⟩
      · have := hlater _ hs
        rwa [← List.mem_singleton.1 hb] at this

end Tables

/-- **The table has the last declarations in preorder.** A name is in the table of a tree exactly if it is declared
somewhere in it. It stands for the declaration that comes last in preorder, and the names are in the order of their first
declarations. -/
theorem ofTree_last_in_preorder (root : Node) :
    (∀ x, x ∈ OrderedMap.keys (DeclarationTable.ofTree root) ↔ ∃ a d, Declares root a x d) ∧
      (∀ x d, (DeclarationTable.ofTree root).lookup x = some d ↔
        ∃ a, Declares root a x d ∧ ∀ b d', Declares root b x d' → b = a ∨ Precedes b a) ∧
      (OrderedMap.keys (DeclarationTable.ofTree root)).Nodup ∧
      (OrderedMap.keys (DeclarationTable.ofTree root)).Pairwise fun x y =>
        ∃ a d, Declares root a x d ∧ ∀ b d', Declares root b y d' → Precedes a b := by
  have hlisted := listedBy_bindings root
  rw [ofTree_eq_ofList]
  exact ⟨fun x => hlisted.mem_keys, fun x d => hlisted.lookup, OrderedMap.nodup_keys_ofList _, hlisted.pairwise_keys⟩

end ModuleMock
