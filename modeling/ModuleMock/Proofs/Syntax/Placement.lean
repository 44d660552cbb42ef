import ModuleMock.Entity
import ModuleMock.Literal.Serialize

/-!
# Nodes without their places

`Node.unplaced` forgets where a node stands in its source: two trees that agree after it differ in line numbers and
offsets only. Everything that is read off a node, other than its line, is the same before and after; functions that
give nodes commute with it.

- `unwrap_unplaced`, `child?_unplaced`: parts of a node;
- `ownBindings_unplaced`: what a node declares;
- `ofFunction_unplaced`: the entity of a function;
- `serializeWith_unplaced`: the written form of a literal.
-/

namespace ModuleMock

namespace Syntax.Node

mutual

/-- Nodes can be compared. -/
def decEq : (a b : Node) → Decidable (a = b)
  | mk k l e m cs, mk k' l' e' m' cs' =>
    if h : k = k' ∧ l = l' ∧ e = e' ∧ m = m' then
      match decEqAll cs cs' with
      | isTrue hc => isTrue (by rw [h.1, h.2.1, h.2.2.1, h.2.2.2, hc])
      | isFalse hc => isFalse fun he => hc (mk.inj he).2.2.2.2
    else isFalse fun he => h ⟨(mk.inj he).1, (mk.inj he).2.1, (mk.inj he).2.2.1, (mk.inj he).2.2.2.1⟩

def decEqAll : (as bs : List Node) → Decidable (as = bs)
  | [], [] => isTrue rfl
  | [], _ :: _ => isFalse nofun
  | _ :: _, [] => isFalse nofun
  | a :: as, b :: bs =>
    match decEq a b, decEqAll as bs with
    | isTrue h, isTrue hs => isTrue (by rw [h, hs])
    | isFalse h, _ => isFalse fun he => h (List.cons.inj he).1
    | _, isFalse hs => isFalse fun he => hs (List.cons.inj he).2

end

instance : DecidableEq Node := decEq

mutual

/-- The node as if it stood at the start of a text. -/
def unplaced : Node → Node
  | mk k l e m cs => mk k l ⟨0, 0, 0, e.text⟩ m (unplacedAll cs)

def unplacedAll : List Node → List Node
  | [] => []
  | n :: ns => n.unplaced :: unplacedAll ns

end

theorem unplacedAll_eq (ns : List Node) : unplacedAll ns = ns.map unplaced := by
  induction ns with
  | nil => rfl
  | cons n ns ih => rw [unplacedAll, ih, List.map_cons]

/-- A node without places: the text stays, and so does the shape below. -/
theorem unplaced_mk (k : Kind) (l : Option Label) (e : Extent) (m : Bool) (cs : List Node) :
    (mk k l e m cs).unplaced = mk k l ⟨0, 0, 0, e.text⟩ m (cs.map unplaced) := by
  rw [unplaced, unplacedAll_eq]

section Parts

variable (n : Node)

@[simp] theorem kind_unplaced : n.unplaced.kind = n.kind := by cases n; rfl

@[simp] theorem label_unplaced : n.unplaced.label = n.label := by cases n; rfl

@[simp] theorem text_unplaced : n.unplaced.text = n.text := by cases n; rfl

/-- The children lose their places with the node. -/
@[simp] theorem children_unplaced : n.unplaced.children = n.children.map unplaced := by
  cases n
  rw [unplaced_mk]
  rfl

@[simp] theorem isForm_unplaced (f : Form) : n.unplaced.isForm f = n.isForm f := by simp [isForm]

@[simp] theorem isNamed_unplaced : n.unplaced.isNamed = n.isNamed := by simp [isNamed]

@[simp] theorem isWrapper_unplaced : n.unplaced.isWrapper = n.isWrapper := by simp [isWrapper]

@[simp] theorem stringValue_unplaced : n.unplaced.stringValue = n.stringValue := by simp [stringValue]

@[simp] theorem codeChildren_unplaced : n.unplaced.codeChildren = n.codeChildren.map unplaced := by
  simp [codeChildren, List.filter_map, Function.comp_def]

@[simp] theorem namedChildren_unplaced : n.unplaced.namedChildren = n.namedChildren.map unplaced := by
  simp [namedChildren, List.filter_map, Function.comp_def]

@[simp] theorem hasKeyword_unplaced (spelling : String) : n.unplaced.hasKeyword spelling = n.hasKeyword spelling := by
  simp [hasKeyword, Function.comp_def]

/-- A labelled child is found in the same way without places. -/
@[simp] theorem child?_unplaced (l : Label) : n.unplaced.child? l = (n.child? l).map unplaced := by
  have hlabel : (fun c : Node => c.label == some l) ∘ unplaced = fun c => c.label == some l := by
    funext c
    exact congrArg (· == some l) (label_unplaced c)
  rw [child?, children_unplaced, List.find?_map, hlabel, child?]

/-- Wrappers are looked through in the same way without places. -/
@[simp] theorem unwrap_unplaced : n.unplaced.unwrap = n.unwrap.unplaced := by
  fun_induction unwrap n with
  | case1 n hw c hc ih =>
    rw [unwrap, isWrapper_unplaced, if_pos hw]
    split
    · rename_i d hd
      rw [codeChildren_unplaced, List.head?_map, hc] at hd
      obtain rfl := Option.some.inj hd
      exact ih
    · rename_i hd
      rw [codeChildren_unplaced, List.head?_map, hc] at hd
      cases hd
  | case2 n hw hc =>
    rw [unwrap, isWrapper_unplaced, if_pos hw]
    split
    · rename_i d hd
      rw [codeChildren_unplaced, List.head?_map, hc] at hd
      cases hd
    · rfl
  | case3 n hw => rw [unwrap, isWrapper_unplaced, if_neg hw]

end Parts

end Syntax.Node

open Syntax

/-! ## Declarations -/

section Declarations

variable (n : Node)

/-- The declaration with its nodes unplaced. -/
def Declaration.unplaced : Declaration → Declaration
  | .variable node value => .variable node.unplaced (value.map Node.unplaced)
  | .function node => .function node.unplaced
  | .imported source name => .imported source name

@[simp] theorem isFunctionDeclaration_unplaced : isFunctionDeclaration n.unplaced = isFunctionDeclaration n := by
  simp [isFunctionDeclaration]

@[simp] theorem isFunctionExpression_unplaced : isFunctionExpression n.unplaced = isFunctionExpression n := by
  simp [isFunctionExpression]

@[simp] theorem moduleName_unplaced : moduleName n.unplaced = moduleName n := by simp [moduleName]

/-- What an import binds holds no nodes. -/
theorem specifierBinding?_unplaced (source : String) :
    specifierBinding? source n.unplaced = specifierBinding? source n := by
  unfold specifierBinding?
  rw [Node.isForm_unplaced, Node.child?_unplaced, Node.child?_unplaced]
  split
  · cases n.child? .name with
    | none => rfl
    | some name => cases n.child? .asName <;> simp
  · rfl

theorem clauseBindings_unplaced (source : String) : clauseBindings source n.unplaced = clauseBindings source n := by
  unfold clauseBindings
  simp [List.filter_map, List.filterMap_map, Function.comp_def, specifierBinding?_unplaced]

/-- An import binds the same names without places. -/
theorem importBindings_unplaced : importBindings n.unplaced = importBindings n := by
  unfold importBindings
  rw [Node.child?_unplaced]
  cases n.child? .source with
  | none => rfl
  | some source =>
    simp [List.filter_map, List.flatMap_map, Function.comp_def, clauseBindings_unplaced]

/-- All that an import statement binds is imported. -/
theorem imported_of_mem_importBindings {statement : Node} {p : String × Declaration}
    (h : p ∈ importBindings statement) : ∃ source name, p.2 = .imported source name := by
  have hclause : ∀ source part, p ∈ clauseBindings source part → ∃ source name, p.2 = .imported source name := by
    intro source part hp
    unfold clauseBindings at hp
    split at hp
    · obtain rfl := List.mem_singleton.1 hp
      exact ⟨_, _, rfl⟩
    · split at hp
      · obtain ⟨_, -, rfl⟩ := List.mem_map.1 hp
        exact ⟨_, _, rfl⟩
      · split at hp
        · obtain ⟨n, -, hn⟩ := List.mem_filterMap.1 hp
          unfold specifierBinding? at hn
          split at hn
          · obtain ⟨_, -, rfl⟩ := Option.map_eq_some_iff.1 hn
            exact ⟨_, _, rfl⟩
          · cases hn
        · cases hp
  unfold importBindings at h
  split at h
  · cases h
  · obtain ⟨clause, -, hc⟩ := List.mem_flatMap.1 h
    obtain ⟨part, -, hp⟩ := List.mem_flatMap.1 hc
    exact hclause _ part hp

/-- A variable is declared by a declarator with its name and its initial value. -/
theorem declarator_of_mem_ownBindings {n node : Node} {x : String} {value : Option Node}
    (h : (x, Declaration.variable node value) ∈ ownBindings n) :
    node = n ∧ n.isForm .variableDeclarator = true ∧ n.child? .value = value ∧
      ∃ name, n.child? .name = some name ∧ name.isForm .identifier = true ∧ name.text = x := by
  unfold ownBindings at h
  split at h
  · rename_i hform
    split at h
    · rename_i name hname
      split at h
      · rename_i hid
        obtain ⟨rfl, hvar⟩ := Prod.mk.inj (List.mem_singleton.1 h)
        obtain ⟨rfl, rfl⟩ := Declaration.variable.inj hvar
        exact ⟨rfl, hform, rfl, name, hname, hid, rfl⟩
      · cases h
    · cases h
  · split at h
    · split at h
      · cases List.mem_singleton.1 h
      · cases h
    · split at h
      · obtain ⟨_, _, hi⟩ := imported_of_mem_importBindings h
        cases hi
      · cases h

/-- What a node declares by itself, with the places of its nodes forgotten. -/
theorem ownBindings_unplaced : ownBindings n.unplaced = (ownBindings n).map fun p => (p.1, p.2.unplaced) := by
  unfold ownBindings
  simp only [Node.isForm_unplaced, isFunctionDeclaration_unplaced, Node.child?_unplaced, importBindings_unplaced]
  split
  · cases n.child? .name with
    | none => rfl
    | some name =>
      simp only [Option.map_some, Node.isForm_unplaced, Node.text_unplaced]
      split <;> rfl
  · split
    · cases n.child? .name with
      | none => rfl
      | some name => simp [Declaration.unplaced]
    · split
      · have hself : ∀ p ∈ importBindings n, (p.1, p.2.unplaced) = id p := by
          rintro ⟨x, d⟩ hp
          obtain ⟨source, name, rfl⟩ := imported_of_mem_importBindings hp
          rfl
        rw [List.map_congr_left hself, List.map_id]
      · rfl

end Declarations

/-! ## Functions -/

section Functions

variable (n : Node)

/-- The stand-in for a type does not depend on places. -/
theorem typeValue_unplaced : typeValue n.unplaced = typeValue n := by
  unfold typeValue
  rw [Node.kind_unplaced, Node.text_unplaced, Node.codeChildren_unplaced, Node.child?_unplaced, List.head?_map]
  split
  · rfl
  · cases n.codeChildren.head? <;> simp
  · rfl
  · cases n.child? .name <;> simp
  · rfl

/-- The stand-in for the result of a function does not depend on places. -/
theorem resultValue_unplaced : resultValue n.unplaced = resultValue n := by
  unfold resultValue
  rw [Node.hasKeyword_unplaced, Node.child?_unplaced]
  split
  · rfl
  · cases n.child? .returnType with
    | none => rfl
    | some ascription =>
      simp only [Option.map_some, Node.isForm_unplaced, Node.codeChildren_unplaced, List.head?_map]
      split
      · cases ascription.codeChildren.head? with
        | none => rfl
        | some type => exact typeValue_unplaced type
      · rfl

theorem parameterName?_unplaced : parameterName? n.unplaced = parameterName? n := by
  unfold parameterName?
  simp only [Node.isForm_unplaced, Node.child?_unplaced, Option.map_map, Function.comp_def, Node.text_unplaced]
  split
  · rfl
  · split
    · cases n.child? .left <;> simp
    · rfl

/-- The names of the parameters do not depend on places. -/
theorem parameterNames_unplaced : parameterNames n.unplaced = parameterNames n := by
  unfold parameterNames
  rw [Node.child?_unplaced, Node.child?_unplaced]
  cases n.child? .parameter with
  | some single => simp
  | none =>
    cases n.child? .parameters with
    | none => rfl
    | some list =>
      have hname : parameterName? ∘ Node.unplaced = parameterName? := funext parameterName?_unplaced
      simp only [Option.map_none, Option.map_some, Node.codeChildren_unplaced, List.filterMap_map, hname]

/-- A function is the same entity without places. -/
@[simp] theorem ofFunction_unplaced : Entity.ofFunction n.unplaced = Entity.ofFunction n := by
  rw [Entity.ofFunction, Entity.ofFunction, parameterNames_unplaced, resultValue_unplaced]

end Functions

/-! ## Literals -/

namespace Literal

variable (follow : String → Option String)

theorem stringForm_unplaced (n : Node) : stringForm n.unplaced = stringForm n := by simp [stringForm]

mutual

/-- The written form of an expression does not depend on places, if what names stand for does not. -/
theorem serializeWith_unplaced : ∀ n : Node, serializeWith follow n.unplaced = serializeWith follow n
  | .mk k l e m cs => by
    have hvalue : (Node.mk k l ⟨0, 0, 0, e.text⟩ m (cs.map Node.unplaced)).stringValue =
        (Node.mk k l e m cs).stringValue := rfl
    rw [Node.unplaced_mk, serializeWith.eq_def, serializeWith.eq_def]
    dsimp only
    split
    · rw [← Node.unplaced_mk, stringForm_unplaced]
    · simp [hvalue, Function.comp_def]
    · rfl
    · rfl
    · rfl
    · rw [arrayItems_unplaced cs]
    · rw [objectEntries_unplaced cs]
    · rfl
    · exact serializeFirst_unplaced cs
    · exact serializeFirst_unplaced cs
    · exact serializeFirst_unplaced cs
    · exact serializeFirst_unplaced cs
    · rfl

theorem serializeFirst_unplaced : ∀ cs : List Node,
    serializeFirst follow (cs.map Node.unplaced) = serializeFirst follow cs
  | [] => rfl
  | c :: cs => by
    rw [List.map_cons, serializeFirst, serializeFirst, Node.isNamed_unplaced, Node.isForm_unplaced,
      serializeWith_unplaced c, serializeFirst_unplaced cs]

theorem arrayItems_unplaced : ∀ (cs : List Node) (hole : Bool),
    arrayItems follow hole (cs.map Node.unplaced) = arrayItems follow hole cs
  | [], _ => rfl
  | c :: cs, hole => by
    rw [List.map_cons, arrayItems, arrayItems, Node.kind_unplaced, serializeWith_unplaced c,
      arrayItems_unplaced cs hole, arrayItems_unplaced cs true, arrayItems_unplaced cs false]

theorem objectEntries_unplaced : ∀ cs : List Node,
    objectEntries follow (cs.map Node.unplaced) = objectEntries follow cs
  | [] => rfl
  | .mk k l e m cs :: rest => by
    have htext : (Node.mk k l ⟨0, 0, 0, e.text⟩ m (cs.map Node.unplaced)).text = (Node.mk k l e m cs).text := rfl
    have hkey : (Node.mk k l ⟨0, 0, 0, e.text⟩ m (cs.map Node.unplaced)).child? .key =
        ((Node.mk k l e m cs).child? .key).map Node.unplaced := by rw [← Node.unplaced_mk, Node.child?_unplaced]
    rw [List.map_cons, Node.unplaced_mk, objectEntries.eq_def, objectEntries.eq_def]
    dsimp only
    rw [htext, hkey, memberForm_unplaced cs, objectEntries_unplaced rest]
    split
    · cases (Node.mk (.form .pair) l e m cs).child? .key with
      | none => rfl
      | some key => cases memberForm follow cs <;> simp
    · rfl
    · rfl

theorem memberForm_unplaced : ∀ cs : List Node, memberForm follow (cs.map Node.unplaced) = memberForm follow cs
  | [] => rfl
  | c :: cs => by
    rw [List.map_cons, memberForm, memberForm, Node.label_unplaced, serializeWith_unplaced c, memberForm_unplaced cs]

end

end Literal

end ModuleMock
