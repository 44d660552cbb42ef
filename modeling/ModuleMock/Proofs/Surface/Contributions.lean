import ModuleMock.Proofs.Declaration.Bindings
import ModuleMock.Proofs.Modules.Nesting

/-!
# What export statements contribute

Every export statement contributes names with their entities: the declarators or the function that it declares, the
specifiers of its list, the name of a namespace, all that a wildcard leads to, or the function that it makes the default
export. `WrittenBy` says what becomes of them: a name stands where it was contributed first and keeps what was
contributed last.

A markup comment or a fault between `declare` and the declaration is taken for the declaration (`isObstructed`). Such a
statement exports nothing (`surface_loses_declared`), and no other contribution is lost (`surface_writtenBy`).
-/

namespace ModuleMock

open Syntax

namespace OrderedMap

variable {α : Type}

/-- New keys come after the old ones, each where it is written first. -/
theorem keys_update : ∀ (m : OrderedMap α) (pairs : List (String × α)),
    keys (update m pairs) = keys m ++ ((keys pairs).filter (· ∉ keys m)).eraseDups
  | m, [] => by simp [update, keys]
  | m, (k, a) :: pairs => by
    rw [show update m ((k, a) :: pairs) = update (put m k a) pairs from rfl, keys_update, keys_put,
      show keys ((k, a) :: pairs) = k :: keys pairs from rfl]
    by_cases hk : k ∈ keys m
    · rw [if_pos hk, List.filter_cons_of_neg (by simpa using hk)]
    · have hfilter : (keys pairs).filter (· ∉ keys m ++ [k]) =
          ((keys pairs).filter (· ∉ keys m)).filter fun x => !x == k := by
        rw [List.filter_filter]
        refine List.filter_congr fun x _ => ?_
        by_cases hx : x = k <;> simp [hx]
      rw [if_neg hk, List.filter_cons_of_pos (by simpa using hk), List.eraseDups_cons, hfilter, List.append_assoc]
      rfl

/-- The keys of a map made from pairs, each where it stands first. -/
theorem keys_ofList (pairs : List (String × α)) : keys (ofList pairs) = (keys pairs).eraseDups := by
  rw [ofList, keys_update]
  simp [keys]

end OrderedMap

/-- The named exports come from contributions in a row: the names are in the order in which they are contributed first,
and the last contribution to a name stays. -/
structure Surface.WrittenBy (s : Surface) (contributions : List (String × Entity)) : Prop where
  names : OrderedMap.keys s.named = (OrderedMap.keys contributions).eraseDups
  last : ∀ name, s.named.lookup name = contributions.reverse.lookup name

namespace ModuleView

/-! ## Declarations below `declare` -/

/-- Comments and faults, which can stand between any two parts of a statement. -/
def isAside (n : Node) : Bool := n.isForm .comment || n.isForm .htmlComment || n.isForm .error

/-- The declaration that a node makes, below `declare`. -/
def declared (n : Node) : Node :=
  if n.isForm .ambientDeclaration then
    match _h : n.children.find? fun c => c.isNamed && !isAside c with
    | some c => declared c
    | none => n
  else n
termination_by sizeOf n
decreasing_by exact Node.sizeOf_lt_of_mem_children (List.mem_of_find?_eq_some ‹_›)

/-- Does a markup comment or a fault stand before the declaration, below `declare`? -/
def obstructed (n : Node) : Bool :=
  if n.isForm .ambientDeclaration then
    match _h : n.codeChildren.head? with
    | some c => isAside c || obstructed c
    | none => false
  else false
termination_by sizeOf n
decreasing_by exact Node.sizeOf_lt_of_mem_children (Node.mem_children_of_head?_codeChildren ‹_›)

/-- What is no aside is no comment. -/
theorem isCode_of_not_aside {c : Node} (h : (c.isNamed && !isAside c) = true) :
    (c.isNamed && !c.isForm .comment) = true := by
  unfold isAside at h
  grind

/-- What comes first if plain comments are skipped comes first if all asides are skipped, unless it is one of them. -/
theorem find?_of_head? {n c : Node} (h : n.codeChildren.head? = some c) (hc : isAside c = false) :
    (n.children.find? fun c => c.isNamed && !isAside c) = some c := by
  rw [Node.codeChildren, List.head?_filter] at h
  obtain ⟨hcode, before, after, hsplit, hbefore⟩ := List.find?_eq_some_iff_append.1 h
  refine List.find?_eq_some_iff_append.2 ⟨?_, before, after, hsplit, fun d hd => ?_⟩
  · rw [hc]
    simpa using (Bool.and_eq_true_iff.1 hcode).1
  · have := hbefore d hd
    rw [Bool.not_eq_true'] at this ⊢
    exact Bool.eq_false_iff.2 fun h => by simp [isCode_of_not_aside h] at this

theorem find?_of_head?_eq_none {n : Node} (h : n.codeChildren.head? = none) :
    (n.children.find? fun c => c.isNamed && !isAside c) = none := by
  rw [Node.codeChildren, List.head?_filter] at h
  exact List.find?_eq_none.2 fun c hc hcode => List.find?_eq_none.1 h c hc (isCode_of_not_aside hcode)

/-- An ambient declaration is looked through to its first code child. -/
theorem unwrapAmbient_ambient {n : Node} (h : n.isForm .ambientDeclaration = true) :
    unwrapAmbient n = (n.codeChildren.head?.map unwrapAmbient).getD n := by
  rw [unwrapAmbient, if_pos h]
  split
  · rename_i hc
    rw [hc]
    rfl
  · rename_i hc
    rw [hc]
    rfl

/-- An ambient declaration declares what its first child declares, asides passed by. -/
theorem declared_ambient {n : Node} (h : n.isForm .ambientDeclaration = true) :
    declared n = ((n.children.find? fun c => c.isNamed && !isAside c).map declared).getD n := by
  rw [declared, if_pos h]
  split
  · rename_i hc
    rw [hc]
    rfl
  · rename_i hc
    rw [hc]
    rfl

/-- What obstructs a declaration is taken for it. -/
theorem isAside_unwrapAmbient (n : Node) (h : obstructed n = true) : isAside (unwrapAmbient n) = true := by
  fun_induction obstructed n with
  | case1 n hambient c hc ih =>
    rw [unwrapAmbient_ambient hambient, hc, Option.map_some, Option.getD_some]
    cases haside : isAside c with
    | true =>
      have hplain : c.isForm .ambientDeclaration = false := by
        simp only [isAside, Node.isForm, Bool.or_eq_true, beq_iff_eq] at haside
        rcases haside with (h | h) | h <;> simp [Node.isForm, h]
      rw [unwrapAmbient, if_neg (by simp [hplain]), haside]
    | false => exact ih (by simpa [haside] using h)
  | case2 => cases h
  | case3 => cases h

/-- Plain comments do not obstruct a declaration. -/
theorem unwrapAmbient_eq_declared (n : Node) (h : obstructed n = false) : unwrapAmbient n = declared n := by
  fun_induction obstructed n with
  | case1 n hambient c hc ih =>
    obtain ⟨haside, hrest⟩ := Bool.or_eq_false_iff.1 h
    rw [unwrapAmbient_ambient hambient, declared_ambient hambient, hc, find?_of_head? hc haside, Option.map_some,
      Option.map_some, ih hrest]
  | case2 n hambient hc =>
    rw [unwrapAmbient_ambient hambient, declared_ambient hambient, hc, find?_of_head?_eq_none hc]
    rfl
  | case3 n hambient => rw [unwrapAmbient, declared, if_neg hambient, if_neg hambient]

/-! ## Contributions -/

/-- What a declaration contributes: its declarators, apart from patterns, or its function. -/
def declaredPairs (v : ModuleView) (n : Node) : List (String × Entity) :=
  if n.isForm .lexicalDeclaration || n.isForm .variableDeclaration then
    n.namedChildren.flatMap fun d => (v.declaratorPair? d).toList
  else if isFunctionDeclaration n then ((n.child? .name).map fun name => (name.text, .ofFunction n)).toList
  else []

/-- What a statement contributes; `taken` says that a default export has been accepted before. -/
def contributions (v : ModuleView) (taken : Bool) (statement : Node) : List (String × Entity) :=
  match formOf statement with
  | .declaration d => v.declaredPairs (declared d)
  | .list clause source => v.listPairs clause source
  | .whole n source => v.wholePairs n source
  | .wildcard source => v.wildcardPairs source
  | .default => if taken then [] else (defaultPair? (defaultSubject? statement)).toList
  | .types => []
  | .nothing => []

/-- What statements contribute, in order. -/
def contributionsFrom (v : ModuleView) : Bool → List Node → List (String × Entity)
  | _, [] => []
  | taken, statement :: rest =>
    v.contributions taken statement ++ contributionsFrom v (taken || acceptsDefault statement) rest

/-- Does a statement declare something that is obstructed? -/
def isObstructed (statement : Node) : Bool :=
  match formOf statement with
  | .declaration d => obstructed d
  | _ => false

variable {v : ModuleView}

/-- An aside declares nothing. -/
theorem declaredPairs_of_isAside {n : Node} (h : isAside n = true) : v.declaredPairs n = [] := by
  simp only [isAside, Node.isForm, Bool.or_eq_true, beq_iff_eq] at h
  rcases h with (h | h) | h <;> simp [declaredPairs, isFunctionDeclaration, Node.isForm, h]

/-- A declaration exports what it declares, unless it is obstructed. -/
theorem declarationPairs_eq (d : Node) :
    v.declarationPairs d = if obstructed d then [] else v.declaredPairs (declared d) := by
  have hpairs : v.declarationPairs d = v.declaredPairs (unwrapAmbient d) := rfl
  cases hd : obstructed d with
  | true => exact hpairs.trans (declaredPairs_of_isAside (isAside_unwrapAmbient d hd))
  | false => exact hpairs.trans (congrArg _ (unwrapAmbient_eq_declared d hd))

/-- A statement writes what it contributes, unless it is obstructed. -/
theorem pairs_eq (taken : Bool) (statement : Node) :
    v.pairs taken statement = if isObstructed statement then [] else v.contributions taken statement := by
  unfold pairs isObstructed contributions
  cases formOf statement with
  | declaration d => exact declarationPairs_eq d
  | default => rfl
  | types => rfl
  | list clause source => rfl
  | whole n source => rfl
  | wildcard source => rfl
  | nothing => rfl

/-- A statement whose declaration is obstructed gives no default. -/
theorem acceptsDefault_of_isObstructed {statement : Node} (h : isObstructed statement = true) :
    acceptsDefault statement = false := by
  unfold isObstructed at h
  unfold acceptsDefault
  cases hf : formOf statement with
  | default => rw [hf] at h; cases h
  | _ => rfl

/-- The pairs that are written are the contributions of the statements that are not obstructed. -/
theorem pairsFrom_eq : ∀ (taken : Bool) (statements : List Node),
    v.pairsFrom taken statements = v.contributionsFrom taken (statements.filter fun s => !isObstructed s)
  | _, [] => rfl
  | taken, statement :: rest => by
    rw [pairsFrom, pairs_eq, pairsFrom_eq _ rest]
    cases h : isObstructed statement with
    | true => simp [h, acceptsDefault_of_isObstructed h]
    | false => simp [h, contributionsFrom]

/-- Every surface is written by the contributions of its export statements. -/
theorem writtenBy_of_surface (v : ModuleView) (root : Node) : (v.surface root).WrittenBy
    (v.contributionsFrom false ((exportStatements root).filter fun s => !isObstructed s)) := by
  rw [← pairsFrom_eq]
  exact ⟨by rw [named_surface, OrderedMap.keys_ofList], fun name => by rw [named_surface, OrderedMap.lookup_ofList]⟩

/-- **No export is lost and the last one wins.** The named exports of a module are those that its export statements
contribute, in the order of the first contribution to each name, and with what was contributed last. Nothing is missing
but what obstructed statements declare. This holds whatever surfaces the specifiers of the module lead to, and for every
file of a file tree. -/
theorem surface_writtenBy (v : ModuleView) (root : Node) :
    (v.surface root).WrittenBy
      (v.contributionsFrom false ((exportStatements root).filter fun s => !isObstructed s)) ∧
    ∀ (w : Workspace) (visit : Modules.Visit), (visit.surface w).WrittenBy
      ((visit.linked w).contributionsFrom false ((exportStatements visit.root).filter fun s => !isObstructed s)) := by
  refine ⟨writtenBy_of_surface v root, fun w visit => ?_⟩
  rw [visit.surface_unfold w]
  exact writtenBy_of_surface (visit.linked w) visit.root

/-- A module with a markup comment before the declaration of its only export. -/
def obstructedRoot : Node := Script.parse .plain "export declare <!-- c\nconst x: number;"

def obstructedView : ModuleView := ⟨⟨.ofTree obstructedRoot, fun _ => none⟩, "m.ts"⟩

/-- An obstructed declaration contributes a name that is not exported, although there is nothing wrong with the text. -/
theorem surface_loses_declared : obstructedRoot.hasFault = false ∧
    OrderedMap.keys (obstructedView.contributionsFrom false (exportStatements obstructedRoot)) = ["x"] ∧
    OrderedMap.keys (obstructedView.surface obstructedRoot).named = [] ∧
    ¬(obstructedView.surface obstructedRoot).WrittenBy
      (obstructedView.contributionsFrom false (exportStatements obstructedRoot)) := by
  have hparsed : obstructedRoot.hasFault = false ∧
      OrderedMap.keys (obstructedView.contributionsFrom false (exportStatements obstructedRoot)) = ["x"] ∧
      OrderedMap.keys (obstructedView.surface obstructedRoot).named = [] := by
    decide +kernel
  obtain ⟨hfault, hcontributed, hexported⟩ := hparsed
  refine ⟨hfault, hcontributed, hexported, fun h => ?_⟩
  have hnames := h.names
  rw [hcontributed, hexported] at hnames
  exact absurd hnames (by decide)

end ModuleView

end ModuleMock
