import ModuleMock.Proofs.Declaration.Bindings
import ModuleMock.Proofs.Literal.Aliases

/-!
# What names stand for

Two guards meet on a chain of aliases: one that writes literals and one that resolves names. `resolveIn` is the walk
along the chain without a budget, and each hop of it asks for the form of the next name (`nameForm`).

- `resolveIn_congr`: the names that are being resolved matter only as far as they are on the chain;
- `resolve_alias_chain`: a chain that revisits a name leads nowhere, and any other to its end;
- `classify_eq_resolve`: an initial value stands for what its name stands for;
- `declarator_eq_listed`: a declarator exports what a list with its name exports.
-/

namespace ModuleMock

open Syntax

/-! ## Resolving names -/

namespace Scope

open Literal

/-- What a name that is no alias stands for. -/
def own (scope : Scope) (name : String) : Entity :=
  match scope.table.lookup name with
  | some (.variable _ (some value)) =>
    if isFunctionExpression value.unwrap then .ofFunction value.unwrap else scope.literalOr value.unwrap .unknown
  | some (.function node) => .ofFunction node
  | some (.imported source imported) => entityFrom (scope.link source) imported
  | _ => .unknown

/-- What a name stands for where the listed names are not followed: an alias stands for the literal that the next name
is written as, or else for what the next name stands for. -/
def resolveIn (scope : Scope) (resolving : List String) (name : String) : Entity :=
  if _hname : name ∈ resolving then .unknown
  else
    match _ha : aliasOf? scope.table name with
    | some next =>
      match nameForm scope.table [] next with
      | some text => .constant text
      | none => resolveIn scope (name :: resolving) next
    | none => scope.own name
termination_by pending scope.table resolving
decreasing_by exact pending_of_aliasOf? _ha _hname

variable {scope : Scope} {resolving resolving' : List String} {name next last : String}

/-- A name that is being followed is unknown. -/
theorem resolveIn_of_mem (h : name ∈ resolving) : scope.resolveIn resolving name = .unknown := by
  rw [resolveIn, dif_pos h]

/-- A name that stands for another is a literal if that has one, and is followed otherwise. -/
theorem resolveIn_of_aliasOf? (h : aliasOf? scope.table name = some next) (hname : name ∉ resolving) :
    scope.resolveIn resolving name =
      match nameForm scope.table [] next with
      | some text => .constant text
      | none => scope.resolveIn (name :: resolving) next := by
  rw [resolveIn, dif_neg hname]
  split
  · rename_i next' hnext
    obtain rfl : next = next' := Option.some.inj (h.symm.trans hnext)
    rfl
  · rename_i hnone
    cases h.symm.trans hnone

/-- A name that stands for no other is what it is declared as. -/
theorem resolveIn_of_end (h : aliasOf? scope.table name = none) (hname : name ∉ resolving) :
    scope.resolveIn resolving name = scope.own name := by
  rw [resolveIn, dif_neg hname]
  split
  · rename_i hnext
    cases h.symm.trans hnext
  · rfl

/-- A variable stands for another name if its initial value is one, wrappers aside. -/
theorem aliasOf?_of_lookup {node value : Node} (h : scope.table.lookup name = some (.variable node (some value))) :
    aliasOf? scope.table name = if value.unwrap.isForm .identifier then some value.unwrap.text else none := by
  rw [aliasOf?, initialOf?, h]
  rfl

theorem kind_of_isFunctionExpression {n : Node} (h : isFunctionExpression n = true) :
    n.kind = .form .arrowFunction ∨ n.kind = .form .functionExpression ∨ n.kind = .form .generatorFunction := by
  simpa [isFunctionExpression, Node.isForm, or_assoc] using h

/-- A name is no function expression. -/
theorem isFunctionExpression_of_identifier {n : Node} (h : n.isForm .identifier = true) :
    isFunctionExpression n = false := by
  rw [Node.isForm, beq_iff_eq] at h
  simp [isFunctionExpression, Node.isForm, h]

/-- Functions have no literal form. -/
theorem serialize_function (table : DeclarationTable) {n : Node} (h : isFunctionExpression n = true) :
    serialize table n = none := by
  rw [serialize_eq, serializeIn_eq]
  obtain ⟨k, l, e, m, cs⟩ := n
  obtain rfl | rfl | rfl := kind_of_isFunctionExpression h
  · rfl
  · rfl
  · rfl

/-- A budget for all names that are not being resolved yet is enough. -/
theorem resolveWithin_eq (scope : Scope) : ∀ (budget : Nat) (resolving : List String) (name : String),
    pending scope.table resolving ≤ budget →
    scope.resolveWithin budget resolving name = scope.resolveIn resolving name
  | 0, resolving, name, hbudget => by
    by_cases hname : name ∈ resolving
    · rw [resolveIn_of_mem hname]
      rfl
    · have hl : scope.table.lookup name = none := by
        cases hl : scope.table.lookup name with
        | none => rfl
        | some d => exact absurd (pending_cons_lt hl hname) (by omega)
      have ha : aliasOf? scope.table name = none := by rw [aliasOf?, initialOf?, hl]; rfl
      rw [resolveIn_of_end ha hname, own, hl]
      rfl
  | budget + 1, resolving, name, hbudget => by
    rw [resolveWithin]
    split
    · rename_i hname
      rw [resolveIn_of_mem hname]
    · rename_i hname
      have hown : initialOf? scope.table name = none → scope.resolveIn resolving name = scope.own name := fun hv =>
        resolveIn_of_end (by rw [aliasOf?, hv]; rfl) hname
      rcases hl : scope.table.lookup name with _ | (⟨node, _ | value⟩ | node | ⟨source, imported⟩)
      · rw [hown (by rw [initialOf?, hl]; rfl), own, hl]
      · rw [hown (by rw [initialOf?, hl]; rfl), own, hl]
      · have ha := aliasOf?_of_lookup hl
        dsimp only
        cases hi : value.unwrap.isForm .identifier with
        | true =>
          rw [hi] at ha
          have hf := isFunctionExpression_of_identifier hi
          have hlt := pending_cons_lt hl hname
          rw [resolveIn_of_aliasOf? ha hname, serialize_eq, serializeIn_eq, serializeWith_identifier _ hi, hf,
            resolveWithin_eq scope budget (name :: resolving) value.unwrap.text (by omega)]
          rfl
        | false =>
          rw [hi] at ha
          rw [resolveIn_of_end ha hname, own, hl]
          rfl
      · rw [hown (by rw [initialOf?, hl]; rfl), own, hl]
      · rw [hown (by rw [initialOf?, hl]; rfl), own, hl]

/-- The budget of `resolve` is enough: it gives what the recursion without one gives. -/
theorem resolve_eq (scope : Scope) (name : String) : scope.resolve name = scope.resolveIn [] name :=
  resolveWithin_eq scope scope.table.length [] name (List.length_filter_le _ _)

/-- The names that are being resolved matter only as far as they are on the chain. -/
theorem resolveIn_congr {resolving resolving' : List String} {name : String}
    (h : ∀ i a, aliasChain scope.table name i = some a → (a ∈ resolving ↔ a ∈ resolving')) :
    scope.resolveIn resolving name = scope.resolveIn resolving' name := by
  have hiff := h 0 name rfl
  by_cases hname : name ∈ resolving
  · rw [resolveIn_of_mem hname, resolveIn_of_mem (hiff.1 hname)]
  · have hname' : name ∉ resolving' := fun hmem => hname (hiff.2 hmem)
    cases ha : aliasOf? scope.table name with
    | none => rw [resolveIn_of_end ha hname, resolveIn_of_end ha hname']
    | some next =>
      rw [resolveIn_of_aliasOf? ha hname, resolveIn_of_aliasOf? ha hname']
      have ih : scope.resolveIn (name :: resolving) next = scope.resolveIn (name :: resolving') next := by
        refine resolveIn_congr fun i a hi => ?_
        rw [List.mem_cons, List.mem_cons, h (i + 1) a (by rwa [aliasChain_succ ha])]
      rw [ih]
termination_by pending scope.table resolving
decreasing_by exact pending_of_aliasOf? ha hname

/-- A name whose aliases never end is unknown, wherever the walk begins. -/
theorem resolveIn_of_endless {resolving : List String} {name : String} (h : Endless scope.table name) :
    scope.resolveIn resolving name = .unknown := by
  by_cases hname : name ∈ resolving
  · exact resolveIn_of_mem hname
  · obtain ⟨next, hnext, hendless⟩ := h.step
    rw [resolveIn_of_aliasOf? hnext hname, nameForm_of_endless hendless]
    exact resolveIn_of_endless hendless
termination_by pending scope.table resolving
decreasing_by exact pending_of_aliasOf? hnext hname

/-- A name whose aliases never end is unknown. -/
theorem resolve_of_endless (scope : Scope) {name : String} (h : Endless scope.table name) :
    scope.resolve name = .unknown := by rw [resolve_eq, resolveIn_of_endless h]

/-- A name whose initial value is a literal stands for it. -/
theorem own_of_ownForm {text : String} (h : ownForm scope.table name = some text) :
    scope.own name = .constant text := by
  obtain ⟨v, hv, htext⟩ := Option.bind_eq_some_iff.1 h
  obtain ⟨node, hl⟩ := lookup_of_initialOf? hv
  have hform : serialize scope.table v.unwrap = some text := by
    rwa [serialize_eq, serializeIn_eq, serializeWith_unwrap, ← serializeIn_eq]
  have hf : isFunctionExpression v.unwrap = false := by
    rw [Bool.eq_false_iff]
    intro hf
    cases (serialize_function scope.table hf).symm.trans hform
  rw [own, hl]
  dsimp only
  rw [hf, literalOr, hform]
  rfl

/-- On a chain that ends, a name stands for what the last one stands for, if each name after the first is written as the
initial value of the last one is. -/
theorem resolveIn_of_chain (hend : aliasOf? scope.table last = none) :
    ∀ (k : Nat) (name : String) (resolving : List String), ¬Revisits scope.table name →
    aliasChain scope.table name k = some last →
    (∀ i a, i ≤ k → aliasChain scope.table name i = some a → a ∉ resolving) →
    (∀ i a, i < k → aliasChain scope.table name (i + 1) = some a →
      nameForm scope.table [] a = ownForm scope.table last) →
    scope.resolveIn resolving name = scope.own last
  | 0, name, resolving, _, hk, hout, _ => by
    obtain rfl := Option.some.inj hk
    exact resolveIn_of_end hend (hout 0 name (Nat.le_refl 0) rfl)
  | k + 1, name, resolving, hr, hk, hout, hforms => by
    have hname := hout 0 name (Nat.zero_le _) rfl
    obtain ⟨next, hnext⟩ := exists_aliasOf? hk
    have hform := hforms 0 next (by omega) hnext
    rw [resolveIn_of_aliasOf? hnext hname, hform]
    cases hown : ownForm scope.table last with
    | some text => exact (own_of_ownForm hown).symm
    | none =>
      refine resolveIn_of_chain hend k next (name :: resolving) (fun h => hr (.of_next hnext h))
        (by rwa [← aliasChain_succ hnext]) ?_ ?_
      · intro i a hi ha
        rw [List.mem_cons, not_or]
        refine ⟨?_, hout (i + 1) a (by omega) (by rwa [aliasChain_succ hnext])⟩
        rintro rfl
        exact hr (.of_loop hnext ha)
      · intro i a hi ha
        exact hforms (i + 1) a (by omega) (by rwa [aliasChain_succ hnext])

/-- **Chains of aliases lead to their ends.** A name whose chain revisits a name stands for an unknown value. Any other
chain ends at a name that is no alias, and the first name stands for what the last one stands for, which its own
declaration says. If that is an array or an object, no name after the first may be reachable from it. -/
theorem resolve_alias_chain (scope : Scope) (name : String) :
    (Revisits scope.table name → scope.resolve name = .unknown) ∧
    (¬Revisits scope.table name →
      ∃ k last, aliasChain scope.table name k = some last ∧ aliasOf? scope.table last = none) ∧
    ∀ k last, aliasChain scope.table name k = some last → aliasOf? scope.table last = none →
      scope.resolve last = scope.own last ∧
      ((∀ v, initialOf? scope.table last = some v →
          v.unwrap.isForm .array = true ∨ v.unwrap.isForm .object = true →
          ∀ i a, 1 ≤ i → i ≤ k → aliasChain scope.table name i = some a → ¬Reaches scope.table v a) →
        scope.resolve name = scope.resolve last) := by
  refine ⟨fun hr => resolve_of_endless scope hr.endless, exists_end, fun k last hk hend => ?_⟩
  have hr := not_revisits_of_end hk hend
  have hlast : scope.resolve last = scope.own last := by rw [resolve_eq, resolveIn_of_end hend List.not_mem_nil]
  refine ⟨hlast, fun hfar => ?_⟩
  have hfar' : ∀ i a, i < k → aliasChain scope.table name (i + 1) = some a →
      ∀ v, initialOf? scope.table last = some v → ¬Reaches scope.table v a := by
    intro i a hi ha v hv
    by_cases hshape : v.unwrap.isForm .array = true ∨ v.unwrap.isForm .object = true
    · exact hfar v hv hshape (i + 1) a (by omega) (by omega) ha
    · rw [not_or, Bool.not_eq_true, Bool.not_eq_true] at hshape
      exact not_reaches_of_end hend hv hshape.1 hshape.2
  rw [resolve_eq, hlast]
  refine resolveIn_of_chain hend k name [] hr hk (fun _ _ _ _ => List.not_mem_nil) fun i a hi ha => ?_
  -- the rest of the chain, from one of its names on
  have hrest : ∀ j, aliasChain scope.table a j = aliasChain scope.table name (i + 1 + j) := fun j =>
    (aliasChain_of_chain ha j).symm
  refine nameForm_of_end hend (k - (i + 1)) a [] (fun h => hr (.of_chain ha h)) ?_ (by simp) ?_
  · rw [hrest, Nat.add_sub_cancel' hi, hk]
  · intro j b hj hb
    rw [hrest, Nat.add_right_comm] at hb
    exact ⟨List.not_mem_nil, hfar' (i + j) b (by omega) hb⟩

/-- An alias of an alias of an array, and a chain that leads into a circle. -/
def chainedText : String := "let a = b, b = (c as any), c = [d, \x7b e \x7d], d = 1, p = q, q = r, r = q"

/-- The scope of the module with these declarations. -/
def chained : Scope := ⟨.ofTree (Script.parse .plain chainedText), fun _ => none⟩

theorem resolve_alias_chain_chained : aliasChain chained.table "a" 2 = some "c" ∧
    aliasOf? chained.table "c" = none ∧ chained.resolve "a" = .constant "[1, \x7be: undefined\x7d]" ∧
    Revisits chained.table "p" ∧ chained.resolve "p" = .unknown := by
  have hparsed : aliasChain chained.table "a" 1 = some "b" ∧ aliasChain chained.table "a" 2 = some "c" ∧
      aliasOf? chained.table "c" = none ∧
      (initialOf? chained.table "c").map mentions = some ["d", "e"] ∧
      (initialOf? chained.table "c").bind (serialize chained.table) = some "[1, \x7be: undefined\x7d]" ∧
      (∀ a ∈ ["d", "e"], ∀ b ∈ ((initialOf? chained.table a).map mentions).getD [], b ∈ ["d", "e"]) ∧
      aliasChain chained.table "p" 1 = some "q" ∧ aliasChain chained.table "p" 3 = some "q" := by
    decide +kernel
  obtain ⟨hb, hc, hend, hmentions, hform, hclosed, hq, hq'⟩ := hparsed
  have hrevisits : Revisits chained.table "p" := ⟨1, 3, "q", by omega, hq, hq'⟩
  obtain ⟨hown, hresolve⟩ := (resolve_alias_chain chained "a").2.2 2 "c" hc hend
  refine ⟨hc, hend, ?_, hrevisits, (resolve_alias_chain chained "p").1 hrevisits⟩
  rw [hresolve, hown, own_of_ownForm]
  · rw [ownForm, ← hform]
    exact congrArg _ (funext fun n => (serialize_eq _ n).symm)
  · intro v hv _ i a hi hi' ha hreach
    have hnames : a ∈ ["d", "e"] := hreach.mem_of_closed (by rw [hv] at hmentions; simp_all) hclosed
    obtain rfl | rfl : i = 1 ∨ i = 2 := by omega
    · rw [← Option.some.inj (hb.symm.trans ha)] at hnames
      revert hnames
      decide
    · rw [← Option.some.inj (hc.symm.trans ha)] at hnames
      revert hnames
      decide

/-! ## Values -/

/-- A wrapper is what its first code child is. -/
theorem classify_of_isWrapper (scope : Scope) {n : Node} (h : n.isWrapper = true) :
    scope.classify n = (n.codeChildren.head?.map scope.classify).getD .unknown := by
  have hfirst := first_eq scope.classify scope.classifyFirst (fun c cs => by rw [classifyFirst]) n
  obtain ⟨k, l, e, m, cs⟩ := n
  obtain rfl | rfl | rfl | rfl := kind_of_isWrapper h
  all_goals
    rw [classify]
    exact hfirst

/-- Looking through wrappers does not change what an expression is. -/
theorem classify_unwrap (scope : Scope) (n : Node) : scope.classify n.unwrap = scope.classify n :=
  apply_unwrap scope.classify (fun n c hw hc => by rw [classify_of_isWrapper scope hw, hc]; rfl) n

/-- A name is its literal, or else what it resolves to. -/
theorem classify_identifier (scope : Scope) {n : Node} (h : n.isForm .identifier = true) :
    scope.classify n = scope.literalOr n (scope.resolve n.text) := by
  obtain ⟨k, l, e, m, cs⟩ := n
  obtain rfl : k = .form .identifier := by simpa [Node.isForm, Node.kind] using h
  rw [classify]

/-- A value that is neither a name nor an object literal is a function, a literal or unknown. -/
theorem classify_bare (scope : Scope) {n : Node} (hname : n.isForm .identifier = false)
    (hobject : n.isForm .object = false) (hbare : n.isWrapper = false ∨ n.codeChildren.head? = none) :
    scope.classify n = if isFunctionExpression n then .ofFunction n else scope.literalOr n .unknown := by
  cases hw : n.isWrapper with
  | true =>
    have hhead : n.codeChildren.head? = none := hbare.resolve_left (by simp [hw])
    have hform : serialize scope.table n = none := by
      rw [serialize_eq, serializeIn_eq, serializeWith_of_isWrapper _ hw, hhead]
      rfl
    have hf : isFunctionExpression n = false := by
      obtain h | h | h | h := kind_of_isWrapper hw <;> simp [isFunctionExpression, Node.isForm, h]
    rw [classify_of_isWrapper scope hw, hhead, hf, literalOr, hform]
    rfl
  | false =>
    obtain ⟨k, l, e, m, cs⟩ := n
    rw [classify.eq_def]
    dsimp only
    split
    · cases hw
    · cases hw
    · cases hw
    · cases hw
    · rfl
    · rfl
    · rfl
    · cases hobject
    · cases hname
    · rename_i harrow hexpression hgenerator _ _
      have hf : isFunctionExpression (.mk k l e m cs) = false := by
        simp [isFunctionExpression, Node.isForm, Node.kind, show k ≠ _ from harrow, show k ≠ _ from hexpression,
          show k ≠ _ from hgenerator]
      rw [hf]
      rfl

/-- It makes no difference to the next name that the alias itself is being resolved: a chain that comes back to it has
no end. -/
theorem resolveIn_next (h : aliasOf? scope.table name = some next) :
    scope.resolveIn [name] next = scope.resolveIn [] next := by
  by_cases hloop : ∃ i, aliasChain scope.table next i = some name
  · obtain ⟨i, hi⟩ := hloop
    obtain ⟨next', hnext', hendless⟩ := (Revisits.of_loop h hi).endless.step
    obtain rfl : next = next' := Option.some.inj (h.symm.trans hnext')
    rw [resolveIn_of_endless hendless, resolveIn_of_endless hendless]
  · refine resolveIn_congr fun i a ha => ?_
    have hne : a ≠ name := by
      rintro rfl
      exact hloop ⟨i, ha⟩
    simp [hne]

/-- An initial value that is no object literal stands for what its name stands for. -/
theorem classify_eq_resolve (scope : Scope) {name : String} {node value : Node}
    (hl : scope.table.lookup name = some (.variable node (some value)))
    (hobject : value.unwrap.isForm .object = false) : scope.classify value = scope.resolve name := by
  have halias := aliasOf?_of_lookup hl
  rw [← classify_unwrap, resolve_eq]
  cases hname : value.unwrap.isForm .identifier with
  | true =>
    rw [hname] at halias
    have hform : serialize scope.table value.unwrap = nameForm scope.table [] value.unwrap.text := by
      rw [serialize_eq, serializeIn_eq, serializeWith_identifier _ hname]
    rw [resolveIn_of_aliasOf? halias List.not_mem_nil, resolveIn_next halias, classify_identifier scope hname,
      resolve_eq, ← hform]
    rfl
  | false =>
    rw [hname] at halias
    rw [resolveIn_of_end halias List.not_mem_nil, own, hl]
    exact classify_bare scope hname hobject (unwrap_cases value)

end Scope

/-! ## Declarators and lists -/

namespace ModuleView

open Literal Scope

/-- The declarator that a table holds for a name writes what the name resolves to, objects apart. -/
theorem declaratorPair?_of_lookup {root d : Node} {x : String} {value : Option Node}
    (h : (DeclarationTable.ofTree root).lookup x = some (.variable d value))
    (hobject : ∀ n ∈ value, n.unwrap.isForm .object = false) (link : String → Option Surface) (path : String) :
    ModuleView.declaratorPair? ⟨⟨.ofTree root, link⟩, path⟩ d =
      some (x, Scope.resolve ⟨.ofTree root, link⟩ x) := by
  obtain ⟨hd, hvalue, name, hname, hid, rfl⟩ := declarator_of_lookup h
  rw [declaratorPair?, if_pos hd, hname]
  dsimp only
  rw [if_pos hid, hvalue]
  cases value with
  | none =>
    have halias : aliasOf? (DeclarationTable.ofTree root) name.text = none := by
      rw [aliasOf?, initialOf?, h]
      rfl
    rw [resolve_eq, resolveIn_of_end halias List.not_mem_nil, own]
    dsimp only
    rw [h]
  | some value => exact congrArg _ (congrArg _ (classify_eq_resolve ⟨_, link⟩ h (hobject value rfl)))

/-- **Inline and listed exports agree.** A declarator that its name stands for exports under that name what the name
stands for, and so does a list with the name in it. Only object literals are described further where they are declared.
-/
theorem declarator_eq_listed (root : Node) (link : String → Option Surface) (path : String) {d : Node} {x : String}
    {value : Option Node} (h : (DeclarationTable.ofTree root).lookup x = some (.variable d value))
    (hobject : ∀ n ∈ value, n.unwrap.isForm .object = false) :
    let v : ModuleView := ⟨⟨.ofTree root, link⟩, path⟩
    (∀ s, v.visitDeclarator s d = s.put x (v.resolve x)) ∧
    ∀ s clause, clause.namedChildren.filterMap specifierNames? = [(x, x)] →
      v.visitClause s clause none = v.visitDeclarator s d := by
  intro v
  have hinline : ∀ s, v.visitDeclarator s d = s.put x (v.resolve x) := fun s => by
    rw [visitDeclarator_eq, declaratorPair?_of_lookup h hobject]
    rfl
  refine ⟨hinline, fun s clause hclause => ?_⟩
  rw [hinline, visitClause_eq, listPairs, hclause]
  rfl

/-- Two names that are aliases of each other, one of them exported where it is declared and in a list. -/
def circular : Node := Script.parse .plain "const y = (x as any)\nexport const x = y\nexport \x7b x \x7d"

theorem declarator_eq_listed_circular :
    let v : ModuleView := ⟨⟨.ofTree circular, fun _ => none⟩, "m.ts"⟩
    ∃ d value clause, (DeclarationTable.ofTree circular).lookup "x" = some (.variable d (some value)) ∧
      value.unwrap.isForm .object = false ∧ clause.namedChildren.filterMap specifierNames? = [("x", "x")] ∧
      ∀ s, v.visitClause s clause none = v.visitDeclarator s d ∧ v.visitDeclarator s d = s.put "x" .unknown := by
  have hparsed : (initialOf? (.ofTree circular) "x").map (fun n => n.unwrap.isForm .object) = some false ∧
      aliasChain (.ofTree circular) "x" 2 = some "x" ∧
      ((exportStatements circular).getLast?.bind exportGroup?).map
        (fun clause => clause.namedChildren.filterMap specifierNames?) = some [("x", "x")] := by
    decide +kernel
  -- from here on the tree is known only by these facts
  generalize circular = root at hparsed ⊢
  obtain ⟨hvalue, hloop, hclause⟩ := hparsed
  obtain ⟨value, hinitial, hobject⟩ := Option.map_eq_some_iff.1 hvalue
  obtain ⟨d, hl⟩ := lookup_of_initialOf? hinitial
  obtain ⟨clause, -, hspecifiers⟩ := Option.map_eq_some_iff.1 hclause
  have hbare : ∀ n ∈ some value, n.unwrap.isForm .object = false := by
    intro n hn
    rwa [← Option.mem_some.1 hn]
  obtain ⟨hinline, hlisted⟩ := declarator_eq_listed root (fun _ => none) "m.ts" hl hbare
  have hendless : Endless (.ofTree root) "x" := Revisits.endless ⟨0, 2, "x", by omega, rfl, hloop⟩
  have hunknown := resolve_of_endless ⟨.ofTree root, fun _ => none⟩ hendless
  refine ⟨d, value, clause, hl, hobject, hspecifiers, fun s => ⟨hlisted s clause hspecifiers, ?_⟩⟩
  rw [hinline, hunknown]

end ModuleView

end ModuleMock
