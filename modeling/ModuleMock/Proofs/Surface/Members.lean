import ModuleMock.Proofs.Surface.Resolve

/-!
# Members of object literals

A member of an object literal defines a key (`staticKey?`) and, unless it is a setter, an entity for it
(`memberValue`). The expansion of an object literal writes them in order (`expand_eq_foldl`). `MembersOf` says what
comes out: the keys stand where they are defined first, and a key has the entity of its last member that is no setter.
Each member keeps this (`MembersOf.step`), and so it holds of every object literal, the nested ones among them
(`expand_membersOf`).
-/

namespace ModuleMock

open Syntax OrderedMap

namespace Scope

/-! ## What a member defines -/

/-- The key that a member defines. A pair needs a value. -/
def staticKey? (n : Node) : Option String :=
  if n.isForm .methodDefinition then propertyKey? (n.child? .name)
  else if n.isForm .pair then (n.child? .value).bind fun _ => propertyKey? (n.child? .key)
  else if n.isForm .shorthandPropertyIdentifier then some n.text
  else none

def isSetter (n : Node) : Bool := n.isForm .methodDefinition && n.hasKeyword "set" && !n.hasKeyword "get"

/-- Computed, numeric and private keys. -/
def isHiddenKey (key : Node) : Bool :=
  key.isForm .computedPropertyName || key.isForm .number || key.isForm .privatePropertyIdentifier

/-- Spreads, comments, and members with a hidden key. -/
def isSilent (n : Node) : Bool :=
  n.isForm .spreadElement || n.isForm .comment || n.isForm .htmlComment
    || (n.isForm .methodDefinition && (n.child? .name).any isHiddenKey)
    || (n.isForm .pair && (n.child? .key).any isHiddenKey)

/-- The entity of a value, told from the expression below its wrappers. -/
def valueEntity (scope : Scope) (expr : Node) : Entity :=
  if isFunctionExpression expr then .ofFunction expr
  else if expr.isForm .object then .object (scope.expand [] expr.children)
  else scope.literalOr expr (if expr.isForm .identifier then scope.resolve expr.text else .unknown)

/-- The entity that a member defines if it is no setter. -/
def memberValue (scope : Scope) (n : Node) : Entity :=
  if n.isForm .methodDefinition then
    if n.hasKeyword "get" then .constant (resultValue n) else .ofFunction n
  else if n.isForm .pair then ((n.child? .value).map fun value => scope.valueEntity value.unwrap).getD .unknown
  else scope.resolve n.text

/-- Does a member define the key, other than by a setter? -/
def givesEntity (key : String) (n : Node) : Bool := staticKey? n = some key && !isSetter n

/-- The entity of a key: that of its last member that is no setter, and unknown if setters alone define it. -/
def entityOf (scope : Scope) (members : List Node) (key : String) : Entity :=
  ((members.filter (givesEntity key)).getLast?.map scope.memberValue).getD .unknown

/-- The members of an object literal have been read into a map. -/
structure MembersOf (scope : Scope) (members : List Node) (props : OrderedMap Entity) : Prop where
  keys_eq : keys props = (members.filterMap staticKey?).eraseDups
  lookup_eq : ∀ key ∈ members.filterMap staticKey?, props.lookup key = some (scope.entityOf members key)

/-! ## Values -/

variable {scope : Scope}

/-- An object literal is expanded member by member. -/
theorem classify_object {n : Node} (h : n.isForm .object = true) :
    scope.classify n = .object (scope.expand [] n.children) := by
  obtain ⟨k, l, e, m, cs⟩ := n
  obtain rfl : k = .form .object := by simpa [Node.isForm, Node.kind] using h
  rw [classify]
  rfl

/-- What an expression is depends on what its wrappers hold. -/
theorem classify_eq_valueEntity (scope : Scope) (n : Node) : scope.classify n = scope.valueEntity n.unwrap := by
  rw [← classify_unwrap]
  have hbare := Literal.unwrap_cases n
  generalize n.unwrap = expr at hbare ⊢
  unfold valueEntity
  cases hname : expr.isForm .identifier with
  | true =>
    have hobject : expr.isForm .object = false := by
      rw [Node.isForm, beq_iff_eq] at hname
      simp [Node.isForm, hname]
    rw [classify_identifier scope hname, isFunctionExpression_of_identifier hname, hobject]
    rfl
  | false =>
    cases hobject : expr.isForm .object with
    | true =>
      have hfunction : isFunctionExpression expr = false := by
        rw [Node.isForm, beq_iff_eq] at hobject
        simp [isFunctionExpression, Node.isForm, hobject]
      rw [classify_object hobject, hfunction]
      rfl
    | false => rw [classify_bare scope hname hobject hbare]; rfl

/-- The entity of a pair is that of its value. -/
theorem memberEntity_eq (scope : Scope) (cs : List Node) :
    scope.memberEntity cs = (cs.find? fun c => c.label == some .value).map scope.classify := by
  induction cs with
  | nil => rw [memberEntity]; rfl
  | cons c cs ih =>
    rw [memberEntity, List.find?_cons]
    by_cases hc : c.label = some .value
    · simp [hc]
    · rw [if_neg hc, ih, beq_false_of_ne hc]

/-! ## One member after the other -/

/-- Adds what a member defines. -/
def putMember (scope : Scope) (props : OrderedMap Entity) (n : Node) : OrderedMap Entity :=
  match staticKey? n with
  | none => props
  | some key => if isSetter n then putIfAbsent props key .unknown else put props key (scope.memberValue n)

/-- Methods are put as all members are. -/
theorem putMethod_eq_putMember (scope : Scope) (props : OrderedMap Entity) {n : Node}
    (h : n.isForm .methodDefinition = true) : putMethod props n = scope.putMember props n := by
  unfold putMethod putMember
  rw [staticKey?, if_pos h]
  cases propertyKey? (n.child? .name) with
  | none => rfl
  | some key =>
    dsimp only
    rw [isSetter, memberValue, if_pos h, h]
    cases n.hasKeyword "get" <;> cases n.hasKeyword "set" <;> rfl

/-- A pair has its key and its value among its children. -/
theorem putMember_pair (scope : Scope) (props : OrderedMap Entity) {n : Node} (h : n.isForm .pair = true) :
    scope.putMember props n =
      match propertyKey? (n.child? .key), scope.memberEntity n.children with
      | some key, some value => put props key value
      | _, _ => props := by
  have hmethod : n.isForm .methodDefinition = false := by
    rw [Node.isForm, beq_iff_eq] at h
    simp [Node.isForm, h]
  have hvalue : scope.memberEntity n.children =
      (n.child? .value).map fun value => scope.valueEntity value.unwrap := by
    rw [memberEntity_eq, funext scope.classify_eq_valueEntity]
    rfl
  rw [hvalue, putMember, staticKey?, isSetter, memberValue, hmethod, h]
  cases n.child? .value with
  | none => cases propertyKey? (n.child? .key) <;> rfl
  | some value => cases propertyKey? (n.child? .key) <;> rfl

/-- Expanding an object puts its first member, and then the rest. -/
theorem expand_cons (scope : Scope) (props : OrderedMap Entity) (n : Node) (rest : List Node) :
    scope.expand props (n :: rest) = scope.expand (scope.putMember props n) rest := by
  obtain ⟨k, l, e, m, cs⟩ := n
  rw [expand.eq_def]
  dsimp only
  split
  · rw [putMethod_eq_putMember scope props rfl]
  · rw [putMember_pair scope props rfl]
    cases propertyKey? ((Node.mk (.form .pair) l e m cs).child? .key) with
    | none => rfl
    | some key => cases hvalue : scope.memberEntity cs <;> simp [Node.children, hvalue]
  · rfl
  · rename_i hmethod hpair hshorthand
    have hnone : staticKey? (.mk k l e m cs) = none := by
      simp [staticKey?, Node.isForm, Node.kind, show k ≠ _ from hmethod, show k ≠ _ from hpair,
        show k ≠ _ from hshorthand]
    rw [putMember, hnone]

/-- Expanding an object puts its members one after another. -/
theorem expand_eq_foldl (scope : Scope) (members : List Node) (props : OrderedMap Entity) :
    scope.expand props members = members.foldl scope.putMember props := by
  induction members generalizing props with
  | nil => rw [expand]; rfl
  | cons n rest ih => rw [expand_cons, List.foldl_cons, ih]

/-! ## Silent members -/

theorem propertyKey?_of_hidden {key : Option Node} (h : key.any isHiddenKey = true) : propertyKey? key = none := by
  cases key with
  | none => rfl
  | some k =>
    simp only [Option.any_some, isHiddenKey, Node.isForm, Bool.or_eq_true, beq_iff_eq] at h
    rcases h with (h | h) | h <;> simp [propertyKey?, Node.isForm, h]

/-- Members that are passed by have no fixed key. -/
theorem staticKey?_of_isSilent {n : Node} (h : isSilent n = true) : staticKey? n = none := by
  simp only [isSilent, Node.isForm, Bool.or_eq_true, Bool.and_eq_true, beq_iff_eq] at h
  rcases h with (((h | h) | h) | ⟨h, hkey⟩) | ⟨h, hkey⟩
  · simp [staticKey?, Node.isForm, h]
  · simp [staticKey?, Node.isForm, h]
  · simp [staticKey?, Node.isForm, h]
  · simp [staticKey?, Node.isForm, h, propertyKey?_of_hidden hkey]
  · simp [staticKey?, Node.isForm, h, propertyKey?_of_hidden hkey]

/-- Members without an entity can be left out. -/
theorem expand_without_silent (scope : Scope) (members : List Node) (props : OrderedMap Entity) :
    scope.expand props (members.filter fun n => !isSilent n) = scope.expand props members := by
  induction members generalizing props with
  | nil => rfl
  | cons n rest ih =>
    cases hn : isSilent n with
    | true =>
      rw [List.filter_cons_of_neg (by simp [hn]), ih, expand_cons, putMember, staticKey?_of_isSilent hn]
    | false => rw [List.filter_cons_of_pos (by simp [hn]), expand_cons, ih, expand_cons]

/-! ## What one member keeps -/

/-- A member with a fixed key keeps the place of an earlier one with the same key, and otherwise comes last. -/
theorem keys_putMember (scope : Scope) (props : OrderedMap Entity) {n : Node} {key : String}
    (h : staticKey? n = some key) :
    keys (scope.putMember props n) = if key ∈ keys props then keys props else keys props ++ [key] := by
  rw [putMember, h]
  dsimp only
  split
  · unfold putIfAbsent
    split
    · rfl
    · rename_i hkey
      rw [keys_put, if_neg hkey]
  · exact keys_put props key _

/-- A value replaces what was there; a setter writes only where nothing is. -/
theorem lookup_putMember (scope : Scope) (props : OrderedMap Entity) {n : Node} {key : String}
    (h : staticKey? n = some key) (x : String) :
    (scope.putMember props n).lookup x =
      if givesEntity x n then some (scope.memberValue n)
      else if x = key ∧ key ∉ keys props then some .unknown
      else props.lookup x := by
  rw [putMember, h, givesEntity, h]
  dsimp only
  cases isSetter n with
  | true =>
    by_cases hkey : key ∈ keys props
    · simp [putIfAbsent, hkey]
    · simp [putIfAbsent, hkey, lookup_put]
  | false =>
    rw [if_neg (by simp), lookup_put]
    by_cases hx : x = key
    · simp [hx]
    · simp [hx, Ne.symm hx]

/-- A new last element counts only if it is new. -/
theorem eraseDups_concat (xs : List String) (x : String) :
    (xs ++ [x]).eraseDups = if x ∈ xs.eraseDups then xs.eraseDups else xs.eraseDups ++ [x] := by
  rw [List.eraseDups_append]
  by_cases h : x ∈ xs
  · simp [List.removeAll, h]
  · simp [List.removeAll, h, List.eraseDups_cons]

/-- The last member that gives a key an entity decides. -/
theorem entityOf_concat (scope : Scope) (members : List Node) (n : Node) (key : String) :
    scope.entityOf (members ++ [n]) key =
      if givesEntity key n then scope.memberValue n else scope.entityOf members key := by
  rw [entityOf, List.filter_append]
  split
  · rename_i h
    rw [List.filter_cons_of_pos h]
    simp
  · rename_i h
    rw [List.filter_cons_of_neg h]
    simp [entityOf]

/-- A key that no member defines has no entity. -/
theorem entityOf_of_not_mem (scope : Scope) {members : List Node} {key : String}
    (h : key ∉ members.filterMap staticKey?) : scope.entityOf members key = .unknown := by
  have hnone : members.filter (givesEntity key) = [] := by
    refine List.filter_eq_nil_iff.2 fun n hn hkey => h ?_
    simp only [givesEntity, Bool.and_eq_true, decide_eq_true_eq] at hkey
    exact List.mem_filterMap.2 ⟨n, hn, hkey.1⟩
  rw [entityOf, hnone]
  rfl

/-- One more member is read as the law says. -/
theorem MembersOf.step {members : List Node} {props : OrderedMap Entity} (h : scope.MembersOf members props)
    (n : Node) : scope.MembersOf (members ++ [n]) (scope.putMember props n) := by
  have hmem : ∀ x, x ∈ keys props ↔ x ∈ members.filterMap staticKey? := by simp [h.keys_eq]
  cases hkey : staticKey? n with
  | none =>
    have hput : scope.putMember props n = props := by rw [putMember, hkey]
    have hgives : ∀ x, givesEntity x n = false := by simp [givesEntity, hkey]
    refine ⟨?_, fun x hx => ?_⟩
    · simpa [hput, List.filterMap_append, hkey] using h.keys_eq
    · rw [hput, entityOf_concat, hgives]
      exact h.lookup_eq x (by simpa [List.filterMap_append, hkey] using hx)
  | some key =>
    have happend : (members ++ [n]).filterMap staticKey? = members.filterMap staticKey? ++ [key] := by
      simp [List.filterMap_append, hkey]
    refine ⟨?_, fun x hx => ?_⟩
    · rw [keys_putMember scope props hkey, happend, eraseDups_concat, h.keys_eq]
    · rw [lookup_putMember scope props hkey, entityOf_concat]
      split
      · rfl
      · split
        · -- the key is new and a setter defines it
          rename_i hnew
          obtain ⟨rfl, hnew⟩ := hnew
          rw [entityOf_of_not_mem scope (fun hx => hnew ((hmem x).2 hx))]
        · rename_i hold
          refine h.lookup_eq x ?_
          rw [happend, List.mem_append, List.mem_singleton] at hx
          rcases hx with hx | rfl
          · exact hx
          · rw [← hmem]
            by_contra hnew
            exact hold ⟨rfl, hnew⟩

/-- Putting further members keeps the description of the properties. -/
theorem MembersOf.foldl {members : List Node} {props : OrderedMap Entity} (h : scope.MembersOf members props)
    (rest : List Node) : scope.MembersOf (members ++ rest) (rest.foldl scope.putMember props) := by
  induction rest generalizing members props with
  | nil => simpa using h
  | cons n rest ih => simpa using ih (h.step n)

/-- The whole expansion follows from what one member keeps. -/
theorem membersOf_expand (scope : Scope) (members : List Node) :
    scope.MembersOf members (scope.expand [] members) := by
  have hnil : scope.MembersOf [] [] := ⟨rfl, by simp⟩
  rw [expand_eq_foldl]
  exact hnil.foldl members

/-- **Objects follow their members.** The expansion of an object literal has the keys that its members define, in the
order in which they are defined first. A key has the entity of its last member that is no setter: of a getter the value
it returns, of a method or a function value the function, of an object literal its own expansion, of any other value the
literal, what the name stands for, or unknown; where setters alone define the key, it is unknown. Silent members can be
left out. The theorem holds of nested object literals as well, since their entities are such expansions again. -/
theorem expand_membersOf (scope : Scope) (members : List Node) :
    scope.MembersOf members (scope.expand [] members) ∧
      (∀ n, scope.classify n = scope.valueEntity n.unwrap) ∧
      scope.expand [] (members.filter fun n => !isSilent n) = scope.expand [] members := by
  exact ⟨scope.membersOf_expand members, scope.classify_eq_valueEntity, scope.expand_without_silent members []⟩

end Scope

end ModuleMock
