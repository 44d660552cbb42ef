import ModuleMock.Proofs.Surface.Statements
import ModuleMock.Proofs.Syntax.Placement

/-!
# Surfaces without places

What a module exports does not depend on where its nodes stand, nor on the order in which its table of declarations was
written. `Scope.Alike` says that two tables answer alike up to places; names, values and statements then read alike
when their nodes lose their places (`resolve_alike`, `classify_alike`, `pairs_alike`, `statementDefault?_alike`).
-/

namespace ModuleMock

open Syntax

/-! ## Names and values -/

/-- The second scope reads like the first one without places: every name has the same declaration, up to places, the
tables have as many entries, and specifiers lead to the same surfaces. -/
structure Scope.Alike (scope scope' : Scope) : Prop where
  length_eq : scope'.table.length = scope.table.length
  lookup_eq : ∀ name, scope'.table.lookup name = (scope.table.lookup name).map Declaration.unplaced
  link_eq : scope'.link = scope.link

section Alike

variable {scope scope' : Scope} (h : scope.Alike scope')

namespace Literal

include h

theorem serializeWithin_alike : ∀ (budget : Nat) (resolving : List String) (n : Node),
    serializeWithin scope'.table budget resolving n.unplaced = serializeWithin scope.table budget resolving n
  | 0, _, n => serializeWith_unplaced _ n
  | budget + 1, resolving, n => by
    rw [serializeWithin, serializeWithin, serializeWith_unplaced]
    congr 1
    funext name
    rw [h.lookup_eq name]
    split
    · rfl
    · rcases scope.table.lookup name with _ | (⟨_, _ | value⟩ | _ | _)
      · rfl
      · rfl
      · exact serializeWithin_alike budget (name :: resolving) value
      · rfl
      · rfl

/-- Scopes that are alike give an expression the same written form. -/
theorem serialize_alike (n : Node) : serialize scope'.table n.unplaced = serialize scope.table n := by
  rw [serialize, serialize, h.length_eq]
  exact serializeWithin_alike h _ [] n

end Literal

namespace Scope

include h

/-- Scopes that are alike agree on every name, whatever budget is left. -/
theorem resolveWithin_alike : ∀ (budget : Nat) (resolving : List String) (name : String),
    scope'.resolveWithin budget resolving name = scope.resolveWithin budget resolving name
  | 0, _, _ => rfl
  | budget + 1, resolving, name => by
    rw [resolveWithin, resolveWithin, h.lookup_eq name, h.link_eq]
    split
    · rfl
    · rcases scope.table.lookup name with _ | (⟨_, _ | value⟩ | node | _)
      · rfl
      · rfl
      · simp only [Option.map_some, Declaration.unplaced, Node.unwrap_unplaced, isFunctionExpression_unplaced,
          ofFunction_unplaced, Literal.serialize_alike h, Node.isForm_unplaced, Node.text_unplaced,
          resolveWithin_alike budget]
      · simp only [Option.map_some, Declaration.unplaced, ofFunction_unplaced]
      · rfl

/-- Scopes that are alike agree on every name. -/
theorem resolve_alike (name : String) : scope'.resolve name = scope.resolve name := by
  rw [resolve, resolve, h.length_eq]
  exact resolveWithin_alike h _ [] name

theorem literalOr_alike (n : Node) (e : Entity) : scope'.literalOr n.unplaced e = scope.literalOr n e := by
  rw [literalOr, literalOr, Literal.serialize_alike h]

end Scope

end Alike

namespace Scope

theorem propertyKey?_unplaced (key : Option Node) : propertyKey? (key.map Node.unplaced) = propertyKey? key := by
  cases key <;> simp [propertyKey?]

/-- A method is put under the same key without places. -/
theorem putMethod_unplaced (props : OrderedMap Entity) (method : Node) :
    putMethod props method.unplaced = putMethod props method := by
  simp only [putMethod, Node.child?_unplaced, propertyKey?_unplaced, Node.hasKeyword_unplaced, resultValue_unplaced,
    ofFunction_unplaced]

variable {scope scope' : Scope}

mutual

/-- Scopes that are alike agree on every expression. -/
theorem classify_alike (h : scope.Alike scope') : ∀ n : Node, scope'.classify n.unplaced = scope.classify n
  | .mk k l e m cs => by
    have hlit := literalOr_alike h (.mk k l e m cs)
    have hfun := ofFunction_unplaced (.mk k l e m cs)
    have htext : (Node.mk k l ⟨0, 0, 0, e.text⟩ m (cs.map Node.unplaced)).text = (Node.mk k l e m cs).text := rfl
    rw [Node.unplaced_mk] at hlit hfun
    rw [Node.unplaced_mk, classify.eq_def, classify.eq_def]
    dsimp only
    split
    · exact classifyFirst_alike h cs
    · exact classifyFirst_alike h cs
    · exact classifyFirst_alike h cs
    · exact classifyFirst_alike h cs
    · exact hfun
    · exact hfun
    · exact hfun
    · rw [expand_alike h cs]
    · rw [hlit, htext, resolve_alike h]
    · exact hlit _

theorem classifyFirst_alike (h : scope.Alike scope') : ∀ cs : List Node,
    scope'.classifyFirst (cs.map Node.unplaced) = scope.classifyFirst cs
  | [] => rfl
  | c :: cs => by
    rw [List.map_cons, classifyFirst, classifyFirst, Node.isNamed_unplaced, Node.isForm_unplaced, classify_alike h c,
      classifyFirst_alike h cs]

/-- Scopes that are alike expand an object in the same way. -/
theorem expand_alike (h : scope.Alike scope') : ∀ (members : List Node) (props : OrderedMap Entity),
    scope'.expand props (members.map Node.unplaced) = scope.expand props members
  | [], _ => rfl
  | .mk k l e m cs :: rest, props => by
    have hmethod := putMethod_unplaced props (.mk k l e m cs)
    have hkey := Node.child?_unplaced (.mk k l e m cs) .key
    have htext : (Node.mk k l ⟨0, 0, 0, e.text⟩ m (cs.map Node.unplaced)).text = (Node.mk k l e m cs).text := rfl
    rw [Node.unplaced_mk] at hmethod hkey
    rw [List.map_cons, Node.unplaced_mk, expand.eq_def, expand.eq_def]
    dsimp only
    split
    · rw [hmethod, expand_alike h rest]
    · rw [hkey, propertyKey?_unplaced, memberEntity_alike h cs]
      cases propertyKey? ((Node.mk (.form .pair) l e m cs).child? .key) with
      | none => exact expand_alike h rest props
      | some key =>
        cases scope.memberEntity cs with
        | none => exact expand_alike h rest props
        | some value => exact expand_alike h rest _
    · rw [htext, resolve_alike h, expand_alike h rest]
    · exact expand_alike h rest props

theorem memberEntity_alike (h : scope.Alike scope') : ∀ cs : List Node,
    scope'.memberEntity (cs.map Node.unplaced) = scope.memberEntity cs
  | [] => rfl
  | c :: cs => by
    rw [List.map_cons, memberEntity, memberEntity, Node.label_unplaced, classify_alike h c, memberEntity_alike h cs]

end

end Scope

/-! ## Statements -/

/-- The form with its nodes unplaced. -/
def ExportForm.unplaced : ExportForm → ExportForm
  | .default => .default
  | .declaration n => .declaration n.unplaced
  | .types => .types
  | .list clause source => .list clause.unplaced source
  | .whole n source => .whole n.unplaced source
  | .wildcard source => .wildcard source
  | .nothing => .nothing

namespace ModuleView

theorem exportGroup?_unplaced (statement : Node) :
    exportGroup? statement.unplaced = (exportGroup? statement).map Node.unplaced := by
  have hgroup : (fun c : Node => c.isForm .exportClause || c.isForm .namespaceExport) ∘ Node.unplaced =
      fun c => c.isForm .exportClause || c.isForm .namespaceExport := by
    funext c
    rw [Function.comp_apply, Node.isForm_unplaced, Node.isForm_unplaced]
  rw [exportGroup?, Node.namedChildren_unplaced, List.find?_map, hgroup, exportGroup?]

theorem sourceOf_unplaced (statement : Node) : sourceOf statement.unplaced = sourceOf statement := by
  rw [sourceOf, sourceOf, Node.child?_unplaced]
  cases statement.child? .source <;> simp

theorem defaultSubject?_unplaced (statement : Node) :
    defaultSubject? statement.unplaced = (defaultSubject? statement).map Node.unplaced := by
  rw [defaultSubject?, defaultSubject?, Node.child?_unplaced, Node.child?_unplaced]
  cases statement.child? .declaration <;> rfl

/-- An export statement has the same form without places. -/
theorem formOf_unplaced (statement : Node) : formOf statement.unplaced = (formOf statement).unplaced := by
  unfold formOf
  rw [Node.hasKeyword_unplaced, Node.hasKeyword_unplaced, Node.hasKeyword_unplaced, Node.child?_unplaced,
    exportGroup?_unplaced, sourceOf_unplaced]
  split
  · rfl
  · cases statement.child? .declaration with
    | some d => rfl
    | none =>
      dsimp only [Option.map_none]
      split
      · rfl
      · cases exportGroup? statement with
        | some group =>
          simp only [Option.map_some, Node.isForm_unplaced]
          split <;> rfl
        | none =>
          cases sourceOf statement with
          | some source => dsimp only [Option.map_none]; split <;> rfl
          | none => rfl

@[simp] theorem unwrapAmbient_unplaced (n : Node) : unwrapAmbient n.unplaced = (unwrapAmbient n).unplaced := by
  fun_induction unwrapAmbient n with
  | case1 n hw c hc ih =>
    rw [unwrapAmbient, Node.isForm_unplaced, if_pos hw]
    split
    · rename_i d hd
      rw [Node.codeChildren_unplaced, List.head?_map, hc] at hd
      obtain rfl := Option.some.inj hd
      exact ih
    · rename_i hd
      rw [Node.codeChildren_unplaced, List.head?_map, hc] at hd
      cases hd
  | case2 n hw hc =>
    rw [unwrapAmbient, Node.isForm_unplaced, if_pos hw]
    split
    · rename_i d hd
      rw [Node.codeChildren_unplaced, List.head?_map, hc] at hd
      cases hd
    · rfl
  | case3 n hw => rw [unwrapAmbient, Node.isForm_unplaced, if_neg hw]

/-- An export specifier gives the same names without places. -/
theorem specifierNames?_unplaced (n : Node) : specifierNames? n.unplaced = specifierNames? n := by
  unfold specifierNames?
  rw [Node.isForm_unplaced, Node.hasKeyword_unplaced, Node.child?_unplaced, Node.child?_unplaced]
  split
  · cases n.child? .name with
    | none => rfl
    | some name => cases n.child? .asName <;> simp
  · rfl

@[simp] theorem isDefaultFunction_unplaced (n : Node) : isDefaultFunction n.unplaced = isDefaultFunction n := by
  simp [isDefaultFunction]

/-- A default function is exported under its name without places, too. -/
theorem defaultPair?_unplaced (subject : Option Node) :
    defaultPair? (subject.map Node.unplaced) = defaultPair? subject := by
  cases subject with
  | none => rfl
  | some n => simp [defaultPair?, Function.comp_def]

theorem describable_unplaced (subject : Option Node) :
    describable (subject.map Node.unplaced) = describable subject := by
  cases subject with
  | none => rfl
  | some n => simp [describable]

/-- Whether a statement gives a default does not depend on places. -/
theorem acceptsDefault_unplaced (statement : Node) : acceptsDefault statement.unplaced = acceptsDefault statement := by
  rw [acceptsDefault, acceptsDefault, formOf_unplaced, defaultSubject?_unplaced, describable_unplaced]
  cases formOf statement <;> rfl

section Alike

variable {v v' : ModuleView} (h : v.toScope.Alike v'.toScope)

include h

theorem declaratorPair?_alike (d : Node) : v'.declaratorPair? d.unplaced = v.declaratorPair? d := by
  unfold declaratorPair?
  rw [Node.isForm_unplaced, Node.child?_unplaced, Node.child?_unplaced]
  split
  · cases d.child? .name with
    | none => rfl
    | some name =>
      simp only [Option.map_some, Node.isForm_unplaced, Node.text_unplaced]
      cases d.child? .value with
      | none => rfl
      | some value => simp only [Option.map_some, Scope.classify_alike h]
  · rfl

/-- Views that are alike agree on what a declaration exports. -/
theorem declarationPairs_alike (d : Node) : v'.declarationPairs d.unplaced = v.declarationPairs d := by
  unfold declarationPairs
  simp only [unwrapAmbient_unplaced, Node.isForm_unplaced, isFunctionDeclaration_unplaced,
    Node.namedChildren_unplaced, List.flatMap_map, declaratorPair?_alike h, Node.child?_unplaced, Option.map_map,
    Function.comp_def, Node.text_unplaced, ofFunction_unplaced]

/-- Views that are alike agree on what an export list gives. -/
theorem listPairs_alike (clause : Node) (source : Option String) :
    v'.listPairs clause.unplaced source = v.listPairs clause source := by
  have hlisted : v'.listed source = v.listed source := by
    funext name
    cases source with
    | none => exact Scope.resolve_alike h name
    | some source => rw [listed, listed, h.link_eq]
  simp only [listPairs, hlisted, Node.namedChildren_unplaced, List.filterMap_map, Function.comp_def,
    specifierNames?_unplaced]

theorem wholePairs_alike (n : Node) (source : Option String) :
    v'.wholePairs n.unplaced source = v.wholePairs n source := by
  unfold wholePairs
  rw [Node.codeChildren_unplaced, List.getLast?_map, h.link_eq]
  cases n.codeChildren.getLast? <;> cases source <;> simp

/-- A statement writes the same pairs. -/
theorem pairs_alike (taken : Bool) (statement : Node) :
    v'.pairs taken statement.unplaced = v.pairs taken statement := by
  rw [pairs, pairs, formOf_unplaced, defaultSubject?_unplaced, defaultPair?_unplaced]
  cases formOf statement with
  | default => rfl
  | declaration d => exact declarationPairs_alike h d
  | list clause source => exact listPairs_alike h clause source
  | whole n source => exact wholePairs_alike h n source
  | wildcard source => simp only [ExportForm.unplaced, wildcardPairs, h.link_eq]
  | types => rfl
  | nothing => rfl

/-- Views that are alike agree on the pairs of every statement list. -/
theorem pairsFrom_alike : ∀ (taken : Bool) (statements : List Node),
    v'.pairsFrom taken (statements.map Node.unplaced) = v.pairsFrom taken statements
  | _, [] => rfl
  | taken, statement :: rest => by
    rw [List.map_cons, pairsFrom, pairsFrom, pairs_alike h, acceptsDefault_unplaced, pairsFrom_alike _ rest]

/-- A statement describes the same default export. -/
theorem statementDefault?_alike (statement : Node) :
    v'.statementDefault? statement.unplaced = v.statementDefault? statement := by
  have hprops : ∀ subject, v'.defaultProps? (subject.map Node.unplaced) = v.defaultProps? subject := by
    intro subject
    cases subject with
    | none => rfl
    | some n =>
      simp only [defaultProps?, Option.map_some, Option.bind_some, isDefaultFunction_unplaced, Node.child?_unplaced,
        Option.map_map, Function.comp_def, Node.text_unplaced, ofFunction_unplaced, Node.unwrap_unplaced,
        Node.isForm_unplaced, Node.children_unplaced, Scope.expand_alike h, Scope.resolve_alike h]
  rw [statementDefault?, statementDefault?, formOf_unplaced, defaultSubject?_unplaced, hprops]
  cases formOf statement <;> rfl

/-- Two modules whose tables answer alike and whose export statements differ in their places only export the same. -/
theorem surface_alike {root root' : Node}
    (hexports : exportStatements root' = (exportStatements root).map Node.unplaced) :
    (v'.surface root').named = (v.surface root).named ∧ (v'.surface root').default? = (v.surface root).default? := by
  constructor
  · rw [named_surface, named_surface, hexports, pairsFrom_alike h]
  · rw [default?_surface, default?_surface, hexports, List.findSome?_map]
    congr 1
    funext statement
    exact statementDefault?_alike h statement

end Alike

end ModuleView

end ModuleMock
