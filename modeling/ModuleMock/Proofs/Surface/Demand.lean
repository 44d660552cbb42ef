import Mathlib.Data.List.Basic
import ModuleMock.Proofs.Surface.Statements

/-!
# What a surface depends on

A module looks at other modules only through the specifiers it asks for (`ModuleView.queries`): two views of one module
whose links agree there give the same surface (`surface_relink`). The proof goes the way of the definitions: names
(`resolve_relink`), values by mutual recursion over the tree (`classify_relink`), then statements by their form
(`visitExport_relink`).
-/

namespace ModuleMock

open Syntax

/-! ## Names and values -/

namespace Scope

/-- The scope with other surfaces behind its specifiers. -/
def relink (scope : Scope) (link : String → Option Surface) : Scope := { scope with link := link }

/-- The link agrees with that of the scope on the listed specifiers. -/
def Agrees (scope : Scope) (link : String → Option Surface) (asked : List String) : Prop :=
  ∀ s ∈ asked, link s = scope.link s

variable {scope : Scope} {link : String → Option Surface}

theorem Agrees.append {as bs : List String} (h : scope.Agrees link (as ++ bs)) :
    scope.Agrees link as ∧ scope.Agrees link bs := List.forall_mem_append.1 h

@[simp] theorem relink_table : (scope.relink link).table = scope.table := rfl

@[simp] theorem relink_link : (scope.relink link).link = link := rfl

/-- A name resolves in the same way if the modules it asks for are the same. -/
theorem resolveWithin_relink : ∀ {budget : Nat} {resolving : List String} {name : String},
    scope.Agrees link (scope.queriesWithin budget resolving name) →
    (scope.relink link).resolveWithin budget resolving name = scope.resolveWithin budget resolving name
  | 0, _, _, _ => rfl
  | budget + 1, resolving, name, h => by
    rw [queriesWithin] at h
    rw [resolveWithin, resolveWithin]
    simp only [relink_table, relink_link]
    split
    · rfl
    · rename_i hname
      rw [if_neg hname] at h
      rcases hd : scope.table.lookup name with _ | (⟨_, _ | value⟩ | _ | ⟨source, imported⟩)
      · rfl
      · rfl
      · rw [hd] at h
        dsimp only at h ⊢
        split
        · rfl
        · rename_i hf
          cases hl : Literal.serialize scope.table value.unwrap with
          | some text => rfl
          | none =>
            dsimp only
            split
            · rename_i hi
              apply resolveWithin_relink
              simpa [hf, hl, hi] using h
            · rfl
      · rfl
      · rw [hd] at h
        dsimp only
        rw [h source (List.mem_singleton_self source)]

/-- What a name resolves to depends only on the modules it asks for. -/
theorem resolve_relink {name : String} (h : scope.Agrees link (scope.nameQueries name)) :
    (scope.relink link).resolve name = scope.resolve name := resolveWithin_relink h

mutual

/-- What an expression is depends only on the modules it asks for. -/
theorem classify_relink : ∀ (n : Node), scope.Agrees link (scope.valueQueries n) →
    (scope.relink link).classify n = scope.classify n
  | .mk k l e m cs, h => by
    rw [valueQueries.eq_def] at h
    dsimp only at h
    split at h
    · simp only [classify]; exact classifyFirst_relink cs h
    · simp only [classify]; exact classifyFirst_relink cs h
    · simp only [classify]; exact classifyFirst_relink cs h
    · simp only [classify]; exact classifyFirst_relink cs h
    · simp only [classify]; rw [expand_relink cs [] h]
    · simp only [classify, literalOr, relink_table]
      cases hs : Literal.serialize scope.table (.mk (.form .identifier) l e m cs) with
      | some text => rfl
      | none =>
        rw [hs] at h
        exact resolve_relink h
    · rw [classify.eq_def, classify.eq_def]
      dsimp only
      split
      · contradiction
      · contradiction
      · contradiction
      · contradiction
      · rfl
      · rfl
      · rfl
      · contradiction
      · contradiction
      · rfl

theorem classifyFirst_relink : ∀ (cs : List Node), scope.Agrees link (scope.firstQueries cs) →
    (scope.relink link).classifyFirst cs = scope.classifyFirst cs
  | [], _ => rfl
  | c :: cs, h => by
    rw [firstQueries] at h
    rw [classifyFirst, classifyFirst]
    split
    · rename_i hc
      rw [if_pos hc] at h
      exact classify_relink c h
    · rename_i hc
      rw [if_neg hc] at h
      exact classifyFirst_relink cs h

/-- The properties of an object depend only on the modules its members ask for. -/
theorem expand_relink : ∀ (members : List Node) (props : OrderedMap Entity),
    scope.Agrees link (scope.memberQueries members) →
    (scope.relink link).expand props members = scope.expand props members
  | [], _, _ => rfl
  | .mk k l e m cs :: rest, props, h => by
    rw [memberQueries.eq_def] at h
    dsimp only at h
    split at h
    · simp only [expand]
      cases hk : propertyKey? ((Node.mk (.form .pair) l e m cs).child? .key) with
      | none =>
        rw [hk] at h
        exact expand_relink rest props h
      | some key =>
        rw [hk] at h
        rw [memberEntity_relink cs h.append.1]
        cases scope.memberEntity cs with
        | none => exact expand_relink rest props h.append.2
        | some value => exact expand_relink rest _ h.append.2
    · simp only [expand]
      rw [resolve_relink h.append.1]
      exact expand_relink rest _ h.append.2
    · rw [expand.eq_def, expand.eq_def]
      dsimp only
      split
      · exact expand_relink rest _ h
      · contradiction
      · contradiction
      · exact expand_relink rest _ h

theorem memberEntity_relink : ∀ (cs : List Node), scope.Agrees link (scope.pairQueries cs) →
    (scope.relink link).memberEntity cs = scope.memberEntity cs
  | [], _ => rfl
  | c :: cs, h => by
    rw [pairQueries] at h
    rw [memberEntity, memberEntity]
    split
    · rename_i hc
      rw [if_pos hc] at h
      rw [classify_relink c h]
    · rename_i hc
      rw [if_neg hc] at h
      exact memberEntity_relink cs h

end

end Scope

/-! ## Statements -/

namespace ModuleView

/-- The view with other surfaces behind its specifiers. -/
def relink (v : ModuleView) (link : String → Option Surface) : ModuleView := { v with link := link }

variable {v : ModuleView} {link : String → Option Surface} {statement : Node}

@[simp] theorem relink_toScope : (v.relink link).toScope = v.toScope.relink link := rfl

theorem agrees_of_plain {specifiers : List String}
    (h : ∀ q ∈ plainQueries specifiers, link q.specifier = v.link q.specifier) : v.Agrees link specifiers :=
  fun s hs => h ⟨s, false⟩ (List.mem_map_of_mem hs)

/-- A default export depends only on the modules its subject asks for. -/
theorem firstDefault_relink {s : Surface} {line : Nat} {subject : Option Node}
    (h : v.Agrees link (v.defaultQueries subject)) :
    (v.relink link).firstDefault s line subject = v.firstDefault s line subject := by
  unfold defaultQueries at h
  unfold firstDefault
  cases subject with
  | none => rfl
  | some n =>
    dsimp only at h ⊢
    split
    · rfl
    · rename_i hn
      rw [if_neg hn] at h
      split
      · rename_i ho
        rw [if_pos ho] at h
        rw [relink_toScope, Scope.expand_relink _ [] h]
      · rename_i ho
        rw [if_neg ho] at h
        split
        · rename_i hi
          rw [if_pos hi] at h
          rw [relink_toScope, Scope.resolve_relink h]
        · rfl

/-- What a declaration exports depends only on the modules it asks for. -/
theorem declarationPairs_relink {d : Node} (h : v.Agrees link (v.declarationQueries d)) :
    (v.relink link).declarationPairs d = v.declarationPairs d := by
  unfold declarationQueries at h
  unfold declarationPairs
  dsimp only at h ⊢
  split
  · rename_i hv
    rw [if_pos hv] at h
    apply List.flatMap_congr
    intro c hc
    have hq : v.Agrees link _ := fun s hs => h s (List.mem_flatMap.2 ⟨c, hc, hs⟩)
    unfold declaratorPair?
    split
    · rename_i hd
      cases hn : c.child? .name with
      | none => rfl
      | some name =>
        dsimp only
        split
        · rename_i hi
          cases hv : c.child? .value with
          | none => rfl
          | some value =>
            dsimp only
            rw [relink_toScope, Scope.classify_relink value (by simpa [hd, hn, hi, hv] using hq)]
        · rfl
    · rfl
  · rfl

/-- What a statement exports depends only on the modules it asks for, defaults apart. -/
theorem pairs_relink {s : Surface} {taken : Bool} (hf : formOf statement ≠ .default)
    (h : ∀ q ∈ v.statementQueries s statement, link q.specifier = v.link q.specifier) :
    (v.relink link).pairs taken statement = v.pairs taken statement := by
  rw [statementQueries_form] at h
  unfold pairs
  cases hform : formOf statement with
  | default => exact absurd hform hf
  | declaration d =>
    rw [hform] at h
    exact declarationPairs_relink (agrees_of_plain h)
  | list clause source =>
    rw [hform] at h
    apply List.map_congr_left
    intro p hp
    cases source with
    | none =>
      have hq := agrees_of_plain h
      unfold listed
      dsimp only
      rw [relink_toScope, Scope.resolve_relink fun s hs => hq s (List.mem_flatMap.2 ⟨p, hp, hs⟩)]
    | some source =>
      have hq : link source = v.link source := h ⟨source, false⟩ (List.mem_singleton_self _)
      unfold listed
      dsimp only
      rw [relink_toScope, Scope.relink_link, hq]
  | whole n source =>
    rw [hform] at h
    show (v.relink link).wholePairs n source = v.wholePairs n source
    unfold wholePairs
    cases hl : n.codeChildren.getLast? with
    | none => rfl
    | some name =>
      cases source with
      | none => rfl
      | some source =>
        have hq : link source = v.link source := h ⟨source, false⟩ (by simp [hl])
        dsimp only
        rw [relink_toScope, Scope.relink_link, hq]
  | wildcard source =>
    rw [hform] at h
    have hq : link source = v.link source := h ⟨source, true⟩ (List.mem_singleton_self _)
    show (v.relink link).wildcardPairs source = v.wildcardPairs source
    unfold wildcardPairs
    rw [relink_toScope, Scope.relink_link, hq]
  | types => rfl
  | nothing => rfl

/-- A statement depends on other modules only through its queries. -/
theorem visitExport_relink {s : Surface}
    (h : ∀ q ∈ v.statementQueries s statement, link q.specifier = v.link q.specifier) :
    (v.relink link).visitExport s statement = v.visitExport s statement := by
  by_cases hf : formOf statement = .default
  · rw [statementQueries_form, hf] at h
    rw [visitExport_default hf, visitExport_default hf]
    unfold visitDefault
    cases hs : s.default? with
    | some _ => rfl
    | none =>
      rw [hs] at h
      exact firstDefault_relink (agrees_of_plain h)
  · rw [visitExport_eq_write hf s true, visitExport_eq_write hf s true, pairs_relink hf h]

/-- A run over statements depends only on the modules they ask for. -/
theorem visitAll_relink : ∀ {statements : List Node} {s : Surface},
    (∀ q ∈ v.queriesFrom s statements, link q.specifier = v.link q.specifier) →
    statements.foldl (v.relink link).visitExport s = statements.foldl v.visitExport s
  | [], s, _ => rfl
  | statement :: rest, s, h => by
    rw [queriesFrom, List.forall_mem_append] at h
    rw [List.foldl_cons, List.foldl_cons, visitExport_relink h.1]
    exact visitAll_relink h.2

/-- A module depends on other modules only through its queries. -/
theorem surface_relink {root : Node} (h : ∀ q ∈ v.queries root, link q.specifier = v.link q.specifier) :
    (v.relink link).surface root = v.surface root := visitAll_relink h

end ModuleView

end ModuleMock
