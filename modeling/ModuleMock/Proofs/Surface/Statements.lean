import ModuleMock.Surface.Trace

/-!
# What export statements write

An export statement has one of seven forms (`ExportForm`), told from its node alone; `visitExport_form` and
`statementQueries_form` say once what each form does, and all later facts follow by cases on the form.

- `ModuleView.pairs`: what a statement writes under which names. It changes the named exports by these pairs
  (`named_visitExport`), and sets the default export if it is the first that can (`default_visitExport`).
- `named_surface`: the named exports of a module are the pairs of its statements, written in a row.
- `default?_surface`: its default export is the first that can be described.
- `mem_keys_surface`: its names. Only those behind wildcards depend on other modules; the rest can be told from the
  statements (`ownNames`).
-/

namespace ModuleMock

open Syntax

/-! ## Maps -/

namespace OrderedMap

variable {α : Type}

/-- The keys after a `put` are those before it, and the new one. -/
theorem mem_keys_put {m : OrderedMap α} {k x : String} {a : α} : x ∈ keys (put m k a) ↔ x ∈ keys m ∨ x = k := by
  rw [keys_put]
  split
  · rename_i hk
    constructor
    · exact Or.inl
    · rintro (h | rfl)
      · exact h
      · exact hk
  · simp

/-- The keys after an `update` are those of both sides. -/
theorem mem_keys_update {x : String} : ∀ {m : OrderedMap α} {other : List (String × α)},
    x ∈ keys (update m other) ↔ x ∈ keys m ∨ x ∈ keys other
  | m, [] => by simp [update, keys]
  | m, (k, a) :: other => by
    rw [show update m ((k, a) :: other) = update (put m k a) other from rfl, mem_keys_update, mem_keys_put]
    simp [keys, or_assoc]

/-- Updating with one list after another is updating with both. -/
theorem update_append (m : OrderedMap α) (first second : List (String × α)) :
    update m (first ++ second) = update (update m first) second := List.foldl_append

/-- The last value that is written under a key stays; a key that is not written keeps its value. -/
theorem lookup_update {x : String} : ∀ {m : OrderedMap α} {other : List (String × α)},
    (update m other).lookup x = (other.reverse.lookup x).or (m.lookup x)
  | m, [] => rfl
  | m, (k, a) :: other => by
    rw [show update m ((k, a) :: other) = update (put m k a) other from rfl, lookup_update, lookup_put,
      List.reverse_cons, List.lookup_append]
    by_cases hk : x = k
    · simp [hk]
    · simp [hk, List.lookup_cons, beq_eq_false_iff_ne.mpr hk]

theorem lookup_reverse_eq_none {pairs : List (String × α)} {x : String} (h : x ∉ keys pairs) :
    pairs.reverse.lookup x = none := by
  rw [List.lookup_eq_none_iff]
  intro p hp
  exact bne_iff_ne.2 fun e => h (List.mem_map.2 ⟨p, List.mem_reverse.1 hp, e.symm⟩)

/-- The last pair for a key is missing exactly if there is none. -/
theorem lookup_reverse_eq_none_iff {pairs : List (String × α)} {x : String} :
    pairs.reverse.lookup x = none ↔ x ∉ keys pairs := by
  refine ⟨fun h hx => ?_, lookup_reverse_eq_none⟩
  obtain ⟨p, hp, rfl⟩ := List.mem_map.1 hx
  have := List.lookup_eq_none_iff.1 h p (List.mem_reverse.2 hp)
  simp at this

end OrderedMap

/-! ## Forms -/

/-- What an export statement exports. -/
inductive ExportForm where
  | default
  | declaration (n : Node)
  /-- Types only. -/
  | types
  /-- A list in braces, of this module or of the one that is named. -/
  | list (clause : Node) (source : Option String)
  /-- A whole module under one name. -/
  | whole (n : Node) (source : Option String)
  /-- All names of a module. -/
  | wildcard (source : String)
  | nothing

namespace ModuleView

def formOf (statement : Node) : ExportForm :=
  if statement.hasKeyword "default" then .default
  else
    match statement.child? .declaration with
    | some d => .declaration d
    | none =>
      if statement.hasKeyword "type" then .types
      else
        match exportGroup? statement with
        | some group =>
          if group.isForm .exportClause then .list group (sourceOf statement) else .whole group (sourceOf statement)
        | none =>
          match sourceOf statement with
          | some source => if statement.hasKeyword "*" then .wildcard source else .nothing
          | none => .nothing

variable {v : ModuleView} {s : Surface} {statement : Node} {x : String}

/-- Visiting an export statement, by its form. -/
theorem visitExport_form (v : ModuleView) (s : Surface) (statement : Node) :
    v.visitExport s statement =
      match formOf statement with
      | .default => v.visitDefault s statement
      | .declaration d => v.visitDeclaration s d
      | .types => s
      | .list clause source => v.visitClause s clause source
      | .whole n source => v.visitNamespace s n source
      | .wildcard source => v.visitWildcard s source
      | .nothing => s := by
  unfold visitExport formOf
  split
  · rfl
  · cases statement.child? .declaration with
    | some d => rfl
    | none =>
      dsimp only
      split
      · rfl
      · cases exportGroup? statement with
        | some group => dsimp only; split <;> rfl
        | none =>
          cases sourceOf statement with
          | some source => dsimp only; split <;> rfl
          | none => rfl

/-- The modules that an export statement asks for, by its form. -/
theorem statementQueries_form (v : ModuleView) (s : Surface) (statement : Node) :
    v.statementQueries s statement =
      match formOf statement with
      | .default => if s.default?.isSome then [] else plainQueries (v.defaultQueries (defaultSubject? statement))
      | .declaration d => plainQueries (v.declarationQueries d)
      | .types => []
      | .list _ (some source) => [⟨source, false⟩]
      | .list clause none =>
        plainQueries ((clause.namedChildren.filterMap specifierNames?).flatMap fun p => v.nameQueries p.1)
      | .whole n (some source) => if n.codeChildren.getLast?.isSome then [⟨source, false⟩] else []
      | .whole _ none => []
      | .wildcard source => [⟨source, true⟩]
      | .nothing => [] := by
  unfold statementQueries formOf
  split
  · rfl
  · cases statement.child? .declaration with
    | some d => rfl
    | none =>
      dsimp only
      split
      · rfl
      · cases exportGroup? statement with
        | some group =>
          dsimp only
          split
          · cases sourceOf statement <;> rfl
          · cases sourceOf statement with
            | none => cases group.codeChildren.getLast? <;> rfl
            | some source => dsimp only; cases group.codeChildren.getLast? <;> rfl
        | none =>
          cases sourceOf statement with
          | some source => dsimp only; split <;> rfl
          | none => rfl

end ModuleView

/-! ## Writing pairs -/

/-- The surface with pairs written one after the other. -/
def Surface.write (s : Surface) (pairs : List (String × Entity)) : Surface :=
  { s with named := OrderedMap.update s.named pairs }

namespace Surface

theorem put_eq_write (s : Surface) (k : String) (e : Entity) : s.put k e = s.write [(k, e)] := rfl

/-- Writing one list after another is writing both. -/
theorem write_write (s : Surface) (first second : List (String × Entity)) :
    (s.write first).write second = s.write (first ++ second) := by
  simp only [write, OrderedMap.update_append]

/-- A run of visits that each write pairs writes them all. -/
theorem foldl_write {α : Type} {visit : Surface → α → Surface} {pairs : α → List (String × Entity)}
    (h : ∀ s a, visit s a = s.write (pairs a)) :
    ∀ (as : List α) (s : Surface), as.foldl visit s = s.write (as.flatMap pairs)
  | [], s => rfl
  | a :: as, s => by rw [List.foldl_cons, h, foldl_write h as, write_write, List.flatMap_cons]

end Surface

/-! ## Pairs of a statement -/

namespace ModuleView

variable (v : ModuleView)

/-- The function that a default export names, as opposed to a value. -/
def isDefaultFunction (n : Node) : Bool :=
  isFunctionDeclaration n || (isFunctionExpression n && !n.isForm .arrowFunction)

/-- The pair that a default export writes: that of a named function. -/
def defaultPair? (subject : Option Node) : Option (String × Entity) :=
  subject.bind fun n =>
    if isDefaultFunction n then (n.child? .name).map fun name => (name.text, .ofFunction n) else none

/-- Can a default export be described? -/
def describable (subject : Option Node) : Bool :=
  match subject with
  | none => false
  | some n =>
    if isDefaultFunction n then (n.child? .name).isSome else n.unwrap.isForm .object || n.unwrap.isForm .identifier

def declaratorPair? (d : Node) : Option (String × Entity) :=
  if d.isForm .variableDeclarator then
    match d.child? .name with
    | some name =>
      if name.isForm .identifier then
        some (name.text, match d.child? .value with
          | some value => v.classify value
          | none => .unknown)
      else none
    | none => none
  else none

def declarationPairs (declaration : Node) : List (String × Entity) :=
  let n := unwrapAmbient declaration
  if n.isForm .lexicalDeclaration || n.isForm .variableDeclaration then
    n.namedChildren.flatMap fun d => (v.declaratorPair? d).toList
  else if isFunctionDeclaration n then ((n.child? .name).map fun name => (name.text, .ofFunction n)).toList
  else []

/-- What a name in a list stands for: in this module, or in the one that is named. -/
def listed (source : Option String) (name : String) : Entity :=
  match source with
  | none => v.resolve name
  | some source => entityFrom (v.link source) name

def listPairs (clause : Node) (source : Option String) : List (String × Entity) :=
  (clause.namedChildren.filterMap specifierNames?).map fun p => (p.2, v.listed source p.1)

def wholePairs (n : Node) (source : Option String) : List (String × Entity) :=
  match n.codeChildren.getLast?, source with
  | some name, some source => [(moduleName name, entityFrom (v.link source) "*")]
  | _, _ => []

def wildcardPairs (source : String) : List (String × Entity) :=
  match v.link source with
  | some target => target.named
  | none => []

/-- The pairs that a statement writes; `taken` says that a default export has been accepted before. -/
def pairs (taken : Bool) (statement : Node) : List (String × Entity) :=
  match formOf statement with
  | .default => if taken then [] else (defaultPair? (defaultSubject? statement)).toList
  | .declaration d => v.declarationPairs d
  | .list clause source => v.listPairs clause source
  | .whole n source => v.wholePairs n source
  | .wildcard source => v.wildcardPairs source
  | .types => []
  | .nothing => []

/-- Does a statement set the default export when there is none yet? -/
def acceptsDefault (statement : Node) : Bool :=
  match formOf statement with
  | .default => describable (defaultSubject? statement)
  | _ => false

/-- The pairs that statements write, in order. -/
def pairsFrom : Bool → List Node → List (String × Entity)
  | _, [] => []
  | taken, statement :: rest => v.pairs taken statement ++ pairsFrom (taken || acceptsDefault statement) rest

/-! ## What a statement does -/

variable {v} {s : Surface} {statement : Node}

/-- A declarator writes at most one pair. -/
theorem visitDeclarator_eq (s : Surface) (d : Node) : v.visitDeclarator s d = s.write (v.declaratorPair? d).toList := by
  unfold visitDeclarator declaratorPair?
  split
  · cases d.child? .name with
    | none => rfl
    | some name => dsimp only; split <;> rfl
  · rfl

/-- An exported declaration writes the pairs of what it declares. -/
theorem visitDeclaration_eq (s : Surface) (d : Node) : v.visitDeclaration s d = s.write (v.declarationPairs d) := by
  unfold visitDeclaration declarationPairs
  dsimp only
  split
  · exact Surface.foldl_write visitDeclarator_eq _ s
  · split
    · cases (unwrapAmbient d).child? .name <;> rfl
    · rfl

/-- An export list writes one pair for each name it can give. -/
theorem visitClause_eq (s : Surface) (clause : Node) (source : Option String) :
    v.visitClause s clause source = s.write (v.listPairs clause source) := by
  unfold visitClause listPairs
  have hfold : ∀ f : String → Entity,
      (clause.namedChildren.filterMap specifierNames?).foldl (fun s (p : String × String) => s.put p.2 (f p.1)) s =
        s.write ((clause.namedChildren.filterMap specifierNames?).map fun p => (p.2, f p.1)) := fun f => by
    rw [List.map_eq_flatMap]
    exact Surface.foldl_write (fun s p => Surface.put_eq_write s p.2 (f p.1)) _ s
  cases source with
  | none => exact hfold v.resolve
  | some source => exact hfold (entityFrom (v.link source))

/-- A namespace export writes at most one pair. -/
theorem visitNamespace_eq (s : Surface) (n : Node) (source : Option String) :
    v.visitNamespace s n source = s.write (v.wholePairs n source) := by
  unfold visitNamespace wholePairs
  cases n.codeChildren.getLast? <;> cases source <;> rfl

/-- A wildcard writes what the other module names. -/
theorem visitWildcard_eq (s : Surface) (source : String) :
    v.visitWildcard s source = s.write (v.wildcardPairs source) := by
  unfold visitWildcard wildcardPairs
  cases v.link source <;> rfl

/-- The first default export: a named function is written, an object or a name is kept apart, all else is reported. -/
theorem firstDefault_cases (s : Surface) (line : Nat) (subject : Option Node) :
    (describable subject = true ∧ ∃ props, v.firstDefault s line subject =
        { s.write (defaultPair? subject).toList with default? := some props }) ∨
    (describable subject = false ∧ defaultPair? subject = none ∧ ∃ d, v.firstDefault s line subject =
        s.report v.path d) := by
  cases subject with
  | none => exact Or.inr ⟨rfl, rfl, _, rfl⟩
  | some n =>
    have hdef : (isFunctionDeclaration n || (isFunctionExpression n && !n.isForm .arrowFunction)) =
      isDefaultFunction n := rfl
    simp only [firstDefault, describable, defaultPair?, Option.bind_some, hdef]
    cases isDefaultFunction n with
    | true =>
      cases n.child? .name with
      | none => exact Or.inr ⟨rfl, rfl, _, rfl⟩
      | some name => exact Or.inl ⟨rfl, _, rfl⟩
    | false =>
      cases ho : n.unwrap.isForm .object with
      | true => exact Or.inl ⟨rfl, _, rfl⟩
      | false =>
        cases hi : n.unwrap.isForm .identifier with
        | true => exact Or.inl ⟨rfl, _, rfl⟩
        | false => cases isFunctionExpression n.unwrap <;> exact Or.inr ⟨rfl, rfl, _, rfl⟩

/-- A statement that is no default export writes its pairs and does nothing else. -/
theorem visitExport_eq_write (hf : formOf statement ≠ .default) (s : Surface) (taken : Bool) :
    v.visitExport s statement = s.write (v.pairs taken statement) := by
  rw [visitExport_form, pairs]
  cases h : formOf statement with
  | default => exact absurd h hf
  | declaration d => exact visitDeclaration_eq s d
  | list clause source => exact visitClause_eq s clause source
  | whole n source => exact visitNamespace_eq s n source
  | wildcard source => exact visitWildcard_eq s source
  | types => rfl
  | nothing => rfl

theorem visitExport_default (hf : formOf statement = .default) (s : Surface) :
    v.visitExport s statement = v.visitDefault s statement := by rw [visitExport_form, hf]

/-- The named exports after a statement, which depend on the surface before only by whether it has a default. -/
theorem named_visitExport (v : ModuleView) (s : Surface) (statement : Node) :
    (v.visitExport s statement).named = OrderedMap.update s.named (v.pairs s.default?.isSome statement) := by
  by_cases hf : formOf statement = .default
  · rw [visitExport_default hf, visitDefault, pairs, hf]
    cases hs : s.default? with
    | none =>
      rcases v.firstDefault_cases s statement.line (defaultSubject? statement) with ⟨-, _, h⟩ | ⟨-, hp, _, h⟩
      · dsimp only; rw [h]; rfl
      · dsimp only; rw [h, hp]; rfl
    | some _ => rfl
  · rw [visitExport_eq_write hf]; rfl

/-- There is a default after a statement if there was one before or the statement gives one. -/
theorem default_visitExport (v : ModuleView) (s : Surface) (statement : Node) :
    (v.visitExport s statement).default?.isSome = (s.default?.isSome || acceptsDefault statement) := by
  by_cases hf : formOf statement = .default
  · rw [visitExport_default hf, visitDefault, acceptsDefault, hf]
    cases hs : s.default? with
    | none =>
      rcases v.firstDefault_cases s statement.line (defaultSubject? statement) with ⟨hd, _, h⟩ | ⟨hd, -, _, h⟩
      · dsimp only; rw [h, hd]; rfl
      · dsimp only; rw [h, hd]; simp [Surface.report, hs]
    | some _ => simp [Surface.report, hs]
  · have ha : acceptsDefault statement = false := by
      unfold acceptsDefault
      split
      · rename_i h; exact absurd h hf
      · rfl
    rw [visitExport_eq_write hf s true, ha, Bool.or_false]
    rfl

/-- Statements in a row write their pairs in a row. -/
theorem named_visitAll (v : ModuleView) : ∀ (statements : List Node) (s : Surface),
    (statements.foldl v.visitExport s).named =
      OrderedMap.update s.named (v.pairsFrom s.default?.isSome statements)
  | [], s => rfl
  | statement :: rest, s => by
    rw [List.foldl_cons, named_visitAll v rest, named_visitExport, default_visitExport, ← OrderedMap.update_append]
    rfl

/-- The names of a surface are written by the statements of its module, the last one to write a name wins. -/
theorem named_surface (v : ModuleView) (root : Node) :
    (v.surface root).named = OrderedMap.ofList (v.pairsFrom false (exportStatements root)) := by
  rw [surface, named_visitAll]
  unfold initialSurface
  cases root.firstFault? <;> rfl

/-! ## The default export -/

/-- The members that a default export is described by. -/
def defaultProps? (v : ModuleView) (subject : Option Node) : Option (OrderedMap Entity) :=
  subject.bind fun n =>
    if isDefaultFunction n then (n.child? .name).map fun name => [(name.text, .ofFunction n)]
    else if n.unwrap.isForm .object then some (v.expand [] n.unwrap.children)
    else if n.unwrap.isForm .identifier then some [(n.unwrap.text, v.resolve n.unwrap.text)]
    else none

/-- What a statement sets the default export to when there is none yet. -/
def statementDefault? (v : ModuleView) (statement : Node) : Option (OrderedMap Entity) :=
  match formOf statement with
  | .default => v.defaultProps? (defaultSubject? statement)
  | _ => none

/-- The first default that is met is kept. -/
theorem default?_firstDefault (hs : s.default? = none) (line : Nat) (subject : Option Node) :
    (v.firstDefault s line subject).default? = v.defaultProps? subject := by
  cases subject with
  | none => exact hs
  | some n =>
    have hdef : (isFunctionDeclaration n || (isFunctionExpression n && !n.isForm .arrowFunction)) =
      isDefaultFunction n := rfl
    simp only [firstDefault, defaultProps?, Option.bind_some, hdef]
    cases isDefaultFunction n with
    | true =>
      cases n.child? .name with
      | none => exact hs
      | some name => rfl
    | false =>
      cases ho : n.unwrap.isForm .object with
      | true => rfl
      | false =>
        cases hi : n.unwrap.isForm .identifier with
        | true => rfl
        | false => cases isFunctionExpression n.unwrap <;> exact hs

/-- A later default does not replace an earlier one. -/
theorem default?_visitExport (v : ModuleView) (s : Surface) (statement : Node) :
    (v.visitExport s statement).default? = s.default?.or (v.statementDefault? statement) := by
  by_cases hf : formOf statement = .default
  · rw [visitExport_default hf, visitDefault, statementDefault?, hf]
    cases hs : s.default? with
    | none => exact default?_firstDefault hs _ _
    | some props => simp [Surface.report, hs]
  · have hnone : v.statementDefault? statement = none := by
      unfold statementDefault?
      split
      · rename_i h; exact absurd h hf
      · rfl
    rw [visitExport_eq_write hf s true, hnone, Option.or_none]
    rfl

/-- The first default export that can be described stays. -/
theorem default?_visitAll (v : ModuleView) : ∀ (statements : List Node) (s : Surface),
    (statements.foldl v.visitExport s).default? = s.default?.or (statements.findSome? v.statementDefault?)
  | [], s => Option.or_none.symm
  | statement :: rest, s => by
    rw [List.foldl_cons, default?_visitAll v rest, default?_visitExport, List.findSome?_cons, Option.or_assoc]
    cases v.statementDefault? statement <;> rfl

/-- The default of a surface is the first that a statement gives. -/
theorem default?_surface (v : ModuleView) (root : Node) :
    (v.surface root).default? = (exportStatements root).findSome? v.statementDefault? := by
  rw [surface, default?_visitAll]
  unfold initialSurface
  cases root.firstFault? <;> exact Option.none_or

/-! ## Statements in two parts -/

/-- The pairs of a statement list, part by part: the second part begins with what the first has taken. -/
theorem pairsFrom_append (v : ModuleView) : ∀ (taken : Bool) (first second : List Node),
    v.pairsFrom taken (first ++ second) =
      v.pairsFrom taken first ++ v.pairsFrom (taken || first.any acceptsDefault) second
  | taken, [], second => by simp [pairsFrom]
  | taken, statement :: first, second => by
    rw [List.cons_append, pairsFrom, pairsFrom_append v _ first second, pairsFrom, List.append_assoc, List.any_cons,
      Bool.or_assoc]

/-! ## Names -/

def declaratorName? (d : Node) : Option String :=
  if d.isForm .variableDeclarator then
    (d.child? .name).bind fun name => if name.isForm .identifier then some name.text else none
  else none

/-- The names that a declaration exports. -/
def declaredNames (declaration : Node) : List String :=
  let n := unwrapAmbient declaration
  if n.isForm .lexicalDeclaration || n.isForm .variableDeclaration then n.namedChildren.filterMap declaratorName?
  else if isFunctionDeclaration n then ((n.child? .name).map (·.text)).toList
  else []

/-- The names that a statement writes by itself: all but those of a wildcard. -/
def ownNames (taken : Bool) (statement : Node) : List String :=
  match formOf statement with
  | .default =>
    if taken then []
    else
      match defaultSubject? statement with
      | some n => if isDefaultFunction n then ((n.child? .name).map (·.text)).toList else []
      | none => []
  | .declaration d => declaredNames d
  | .list clause _ => (clause.namedChildren.filterMap specifierNames?).map (·.2)
  | .whole n (some _) => (n.codeChildren.getLast?.map moduleName).toList
  | _ => []

/-- The module that a wildcard names. -/
def wildcardSource? (statement : Node) : Option String :=
  match formOf statement with
  | .wildcard source => some source
  | _ => none

/-- The names that statements in a row write by themselves. -/
def ownNamesFrom : Bool → List Node → List String
  | _, [] => []
  | taken, statement :: rest => ownNames taken statement ++ ownNamesFrom (taken || acceptsDefault statement) rest

/-- A declarator that binds a plain name writes that name. -/
theorem keys_declaratorPair? (d : Node) :
    OrderedMap.keys (v.declaratorPair? d).toList = (declaratorName? d).toList := by
  unfold declaratorPair? declaratorName?
  split
  · cases d.child? .name with
    | none => rfl
    | some name => dsimp only [Option.bind_some]; split <;> rfl
  · rfl

/-- A declaration writes the names it declares. -/
theorem keys_declarationPairs (d : Node) : OrderedMap.keys (v.declarationPairs d) = declaredNames d := by
  unfold declarationPairs declaredNames
  dsimp only
  split
  · induction (unwrapAmbient d).namedChildren with
    | nil => rfl
    | cons c cs ih =>
      have hc := v.keys_declaratorPair? c
      unfold OrderedMap.keys at ih hc ⊢
      rw [List.flatMap_cons, List.map_append, ih, hc, List.filterMap_cons]
      cases declaratorName? c <;> rfl
  · split
    · cases (unwrapAmbient d).child? .name <;> rfl
    · rfl

/-- A statement writes its own names and, if it is a wildcard, those of its module. -/
theorem mem_keys_pairs {taken : Bool} {x : String} : x ∈ OrderedMap.keys (v.pairs taken statement) ↔
    x ∈ ownNames taken statement ∨
      ∃ source target, wildcardSource? statement = some source ∧ v.link source = some target ∧
        x ∈ OrderedMap.keys target.named := by
  unfold pairs ownNames wildcardSource?
  cases formOf statement with
  | default =>
    cases taken with
    | true => simp [OrderedMap.keys]
    | false =>
      cases defaultSubject? statement with
      | none => simp [OrderedMap.keys, defaultPair?]
      | some n =>
        cases hn : isDefaultFunction n with
        | true => cases hc : n.child? .name <;> simp [OrderedMap.keys, defaultPair?, hn, hc]
        | false => simp [OrderedMap.keys, defaultPair?, hn]
  | declaration d => simp [keys_declarationPairs]
  | types => simp [OrderedMap.keys]
  | list clause source => simp [OrderedMap.keys, listPairs]
  | whole n source =>
    unfold wholePairs
    cases source <;> cases hl : n.codeChildren.getLast? <;> simp [OrderedMap.keys, hl]
  | wildcard source =>
    unfold wildcardPairs
    cases hl : v.link source <;> simp [OrderedMap.keys, hl]
  | nothing => simp [OrderedMap.keys]

/-- A name is written by the statements themselves or stands in a module that a wildcard names. -/
theorem mem_keys_pairsFrom {x : String} : ∀ {taken : Bool} {statements : List Node},
    x ∈ OrderedMap.keys (v.pairsFrom taken statements) ↔
      x ∈ ownNamesFrom taken statements ∨
        ∃ source ∈ statements.filterMap wildcardSource?, ∃ target, v.link source = some target ∧
          x ∈ OrderedMap.keys target.named
  | taken, [] => by simp [pairsFrom, ownNamesFrom, OrderedMap.keys]
  | taken, statement :: rest => by
    have hkeys : ∀ a b : List (String × Entity), OrderedMap.keys (a ++ b) = OrderedMap.keys a ++ OrderedMap.keys b :=
      fun a b => List.map_append
    rw [pairsFrom, hkeys, List.mem_append, mem_keys_pairs, mem_keys_pairsFrom, ownNamesFrom, List.mem_append,
      List.filterMap_cons]
    cases wildcardSource? statement with
    | none => simp [or_assoc]
    | some source =>
      simp only [Option.some.injEq, List.mem_cons, exists_eq_or_imp]
      constructor
      · rintro ((h | ⟨_, target, rfl, h⟩) | h | h)
        · exact Or.inl (Or.inl h)
        · exact Or.inr (Or.inl ⟨target, h⟩)
        · exact Or.inl (Or.inr h)
        · exact Or.inr (Or.inr h)
      · rintro ((h | h) | ⟨target, h⟩ | h)
        · exact Or.inl (Or.inl h)
        · exact Or.inr (Or.inl h)
        · exact Or.inl (Or.inr ⟨source, target, rfl, h⟩)
        · exact Or.inr (Or.inr h)

/-- The names of a surface: those that its statements write by themselves, and those of the modules behind its
wildcards. -/
theorem mem_keys_surface {root : Node} {x : String} : x ∈ OrderedMap.keys (v.surface root).named ↔
    x ∈ ownNamesFrom false (exportStatements root) ∨
      ∃ source ∈ (exportStatements root).filterMap wildcardSource?, ∃ target, v.link source = some target ∧
        x ∈ OrderedMap.keys target.named := by
  rw [named_surface, OrderedMap.ofList, OrderedMap.mem_keys_update, mem_keys_pairsFrom]
  simp [OrderedMap.keys]

end ModuleView

end ModuleMock
