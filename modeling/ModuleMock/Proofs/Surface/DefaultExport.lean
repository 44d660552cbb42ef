import ModuleMock.Proofs.Modules.Nesting
import ModuleMock.Proofs.Syntax.Faults

/-!
# The default export and its diagnostics

A module may have many default exports. Those up to the first that can be described are refused, that one is accepted,
and those after it are late: `refused`, `accepted?` and `late` tell which is which from the tree alone. `visitExport`
keeps a state instead, whether a default export has been accepted; `errors_visitExport` says what one statement reports
in each state, and `reportsFrom_eq` that over a whole module this comes to one report for each default export that was
not accepted (`surface_settlesDefault`).
-/

namespace ModuleMock

open Syntax

namespace ModuleView

/-! ## Default exports in a row -/

def isDefaultExport (statement : Node) : Bool := statement.hasKeyword "default"

/-- The default exports of a module. -/
def defaultStatements (root : Node) : List Node := (exportStatements root).filter isDefaultExport

/-- Those before the first that can be described. -/
def refused (root : Node) : List Node := (defaultStatements root).takeWhile (!acceptsDefault ·)

/-- The first that can be described. -/
def accepted? (root : Node) : Option Node := (defaultStatements root).find? acceptsDefault

/-- Those after it. -/
def late (root : Node) : List Node := ((defaultStatements root).dropWhile (!acceptsDefault ·)).tail

/-- Why a default export cannot be described. -/
def complaint (statement : Node) : Diagnostic :=
  match defaultSubject? statement with
  | none => .unsupportedDefault "empty" statement.line
  | some n =>
    if isDefaultFunction n then .anonymousDefault statement.line
    else if isFunctionExpression n.unwrap then .anonymousExpression statement.line
    else .unsupportedDefault n.unwrap.kind.name statement.line

def duplicate (statement : Node) : Diagnostic := .duplicateDefault statement.line

/-- The report of the first fault, if there is one. -/
def faultReport (root : Node) : List Diagnostic := (root.firstFault?.map fun n => .faultAt n.line).toList

/-- One report for each default export that is not accepted. -/
def defaultReports (root : Node) : List Diagnostic := (refused root).map complaint ++ (late root).map duplicate

/-- A list falls into what comes before the first hit, the hit and the rest. -/
theorem split_at_find? {α : Type} (p : α → Bool) (as : List α) :
    as = as.takeWhile (!p ·) ++ (as.find? p).toList ++ (as.dropWhile (!p ·)).tail := by
  induction as with
  | nil => rfl
  | cons a as ih =>
    cases h : p a with
    | true => simp [h]
    | false => simpa [h] using ih

/-- Every default export is refused, accepted or late. -/
theorem defaultStatements_eq (root : Node) :
    defaultStatements root = refused root ++ (accepted? root).toList ++ late root :=
  split_at_find? acceptsDefault (defaultStatements root)

/-! ## What a statement reports -/

/-- What a statement reports; `taken` says that a default export has been accepted before. -/
def report? (taken : Bool) (statement : Node) : Option Diagnostic :=
  match formOf statement with
  | .default =>
    if taken then some (duplicate statement)
    else if acceptsDefault statement then none
    else some (complaint statement)
  | _ => none

variable {v : ModuleView} {s : Surface} {statement : Node}

/-- The statements that are visited as defaults are the default exports. -/
theorem formOf_eq_default : formOf statement = .default ↔ isDefaultExport statement = true := by
  unfold formOf isDefaultExport
  constructor
  · intro h
    split at h
    · assumption
    · -- no other form is the default one
      repeat' split at h
      all_goals cases h
  · intro h
    rw [if_pos h]

/-- No other statement gives a default. -/
theorem acceptsDefault_of_ne (h : formOf statement ≠ .default) : acceptsDefault statement = false := by
  unfold acceptsDefault
  split
  · contradiction
  · rfl

/-- No other statement is reported. -/
theorem report?_of_ne (taken : Bool) (h : formOf statement ≠ .default) : report? taken statement = none := by
  unfold report?
  split
  · contradiction
  · rfl

/-- The first default export reports nothing if it can be described, and otherwise why it cannot. -/
theorem errors_firstDefault (s : Surface) (statement : Node) :
    (v.firstDefault s statement.line (defaultSubject? statement)).errors =
      s.errors ++ bif describable (defaultSubject? statement) then [] else [(complaint statement).message v.path] := by
  unfold complaint
  cases defaultSubject? statement with
  | none => rfl
  | some n =>
    have hdef : (isFunctionDeclaration n || (isFunctionExpression n && !n.isForm .arrowFunction)) =
      isDefaultFunction n := rfl
    simp only [firstDefault, describable, hdef]
    cases isDefaultFunction n with
    | true =>
      cases n.child? .name with
      | none => rfl
      | some name => exact (List.append_nil _).symm
    | false =>
      cases n.unwrap.isForm .object with
      | true => exact (List.append_nil _).symm
      | false =>
        cases n.unwrap.isForm .identifier with
        | true => exact (List.append_nil _).symm
        | false => cases isFunctionExpression n.unwrap <;> rfl

/-- One statement adds at most one report. -/
theorem errors_visitExport (v : ModuleView) (s : Surface) (statement : Node) :
    (v.visitExport s statement).errors =
      s.errors ++ ((report? s.default?.isSome statement).map (·.message v.path)).toList := by
  by_cases hf : formOf statement = .default
  · have haccepts : acceptsDefault statement = describable (defaultSubject? statement) := by
      rw [acceptsDefault, hf]
    rw [visitExport_default hf, visitDefault, report?, hf]
    cases s.default? with
    | some _ => rfl
    | none =>
      dsimp only
      rw [errors_firstDefault, haccepts]
      cases describable (defaultSubject? statement) <;> simp
  · rw [visitExport_eq_write hf s true, report?_of_ne _ hf]
    simp [Surface.write]

/-! ## What a module reports -/

/-- What statements in a row report. -/
def reportsFrom : Bool → List Node → List Diagnostic
  | _, [] => []
  | taken, statement :: rest =>
    (report? taken statement).toList ++ reportsFrom (taken || acceptsDefault statement) rest

/-- A run over statements adds their reports in order. -/
theorem errors_visitAll (v : ModuleView) (statements : List Node) (s : Surface) :
    (statements.foldl v.visitExport s).errors =
      s.errors ++ (reportsFrom s.default?.isSome statements).map (·.message v.path) := by
  induction statements generalizing s with
  | nil => simp [reportsFrom]
  | cons statement rest ih =>
    rw [List.foldl_cons, ih, errors_visitExport, default_visitExport, reportsFrom, List.map_append, List.append_assoc]
    cases report? s.default?.isSome statement <;> rfl

/-- Once a default export has been accepted, all others are duplicates. -/
theorem reportsFrom_taken (statements : List Node) :
    reportsFrom true statements = (statements.filter isDefaultExport).map duplicate := by
  induction statements with
  | nil => rfl
  | cons statement rest ih =>
    rw [reportsFrom, Bool.true_or, ih]
    by_cases hf : formOf statement = .default
    · rw [List.filter_cons_of_pos (formOf_eq_default.1 hf), report?, hf]
      rfl
    · rw [List.filter_cons_of_neg (fun h => hf (formOf_eq_default.2 h)), report?_of_ne _ hf]
      rfl

/-- The state that a run keeps splits the default exports where the first that can be described stands. -/
theorem reportsFrom_eq (statements : List Node) :
    reportsFrom false statements =
      ((statements.filter isDefaultExport).takeWhile (!acceptsDefault ·)).map complaint ++
        ((statements.filter isDefaultExport).dropWhile (!acceptsDefault ·)).tail.map duplicate := by
  induction statements with
  | nil => rfl
  | cons statement rest ih =>
    rw [reportsFrom, Bool.false_or]
    by_cases hf : formOf statement = .default
    · rw [List.filter_cons_of_pos (formOf_eq_default.1 hf), report?, hf]
      cases ha : acceptsDefault statement with
      | true => simp [ha, reportsFrom_taken]
      | false => simp [ha, ih]
    · rw [List.filter_cons_of_neg (fun h => hf (formOf_eq_default.2 h)), report?_of_ne _ hf, acceptsDefault_of_ne hf, ih]
      rfl

/-- The errors of a surface are the report on its faults and those on its default exports. -/
theorem errors_surface (v : ModuleView) (root : Node) :
    (v.surface root).errors = (faultReport root ++ defaultReports root).map (·.message v.path) := by
  have hinitial : (v.initialSurface root).default? = none ∧
      (v.initialSurface root).errors = (faultReport root).map (·.message v.path) := by
    unfold initialSurface faultReport
    cases root.firstFault? <;> exact ⟨rfl, rfl⟩
  rw [surface, errors_visitAll, hinitial.1, hinitial.2, List.map_append]
  exact congrArg (fun reports => _ ++ List.map _ reports) (reportsFrom_eq (exportStatements root))

/-! ## What becomes of the default exports -/

/-- A statement that is accepted sets the default export. -/
theorem isSome_statementDefault? (v : ModuleView) (statement : Node) :
    (v.statementDefault? statement).isSome = acceptsDefault statement := by
  have h := v.default_visitExport {} statement
  rw [default?_visitExport] at h
  simpa using h

/-- The default is looked for among the default exports, and the first that can be described gives it. -/
theorem findSome?_statementDefault? (v : ModuleView) (statements : List Node) :
    statements.findSome? v.statementDefault? =
      ((statements.filter isDefaultExport).find? acceptsDefault).bind v.statementDefault? := by
  induction statements with
  | nil => rfl
  | cons statement rest ih =>
    have hsome := v.isSome_statementDefault? statement
    rw [List.findSome?_cons, ih]
    by_cases hf : formOf statement = .default
    · rw [List.filter_cons_of_pos (formOf_eq_default.1 hf), List.find?_cons, ← hsome]
      cases h : v.statementDefault? statement <;> simp [h]
    · rw [List.filter_cons_of_neg (fun h => hf (formOf_eq_default.2 h))]
      rw [acceptsDefault_of_ne hf, Option.isSome_eq_false_iff, Option.isNone_iff_eq_none] at hsome
      rw [hsome]

/-- The default exports of a module are settled: the first that can be described is the default export and stays it,
and each of the others has one report. -/
structure SettlesDefault (v : ModuleView) (root : Node) (s : Surface) : Prop where
  /-- What the first default export of a supported shape gives is the default export. -/
  first : s.default? = (accepted? root).bind v.statementDefault?
  isSome_eq : s.default?.isSome = (accepted? root).isSome
  /-- What statements up to some point have made the default export is not changed by those after it. -/
  stays : ∀ before after props, exportStatements root = before ++ after →
    (before.foldl v.visitExport (v.initialSurface root)).default? = some props → s.default? = some props
  /-- The reports are about this module: its first fault, then the default exports that were not accepted, in order. -/
  errors_eq : s.errors = (faultReport root ++ defaultReports root).map (·.message v.path)
  faulty_iff : faultReport root ≠ [] ↔ root.hasFault = true
  partition : defaultStatements root = refused root ++ (accepted? root).toList ++ late root
  count : (defaultStatements root).length = (defaultReports root).length + if s.default?.isSome then 1 else 0

/-- Every surface settles its default export. -/
theorem settlesDefault (v : ModuleView) (root : Node) : v.SettlesDefault root (v.surface root) := by
  have hfirst : (v.surface root).default? = (accepted? root).bind v.statementDefault? := by
    rw [default?_surface, findSome?_statementDefault?]
    rfl
  have hsome : (v.surface root).default?.isSome = (accepted? root).isSome := by
    rw [hfirst]
    cases ha : accepted? root with
    | none => rfl
    | some statement =>
      rw [Option.bind_some, isSome_statementDefault?]
      exact List.find?_some ha
  refine ⟨hfirst, hsome, ?_, errors_surface v root, ?_, defaultStatements_eq root, ?_⟩
  · intro before after props hsplit hprops
    rw [surface, hsplit, List.foldl_append, default?_visitAll, hprops, Option.some_or]
  · rw [← Node.isSome_firstFault?, faultReport]
    cases root.firstFault? <;> simp
  · rw [defaultStatements_eq root, hsome, defaultReports]
    cases accepted? root with
    | none => simp
    | some statement =>
      simp
      omega

/-- **The first default export that can be described stays, and every other one is reported.** This holds whatever
surfaces the specifiers of the module lead to, and for every file of a file tree. What is reported does not depend on
other modules at all. -/
theorem surface_settlesDefault (v : ModuleView) (root : Node) :
    v.SettlesDefault root (v.surface root) ∧
    (∀ link, ((v.relink link).surface root).errors = (v.surface root).errors) ∧
    ∀ (w : Workspace) (visit : Modules.Visit), (visit.linked w).SettlesDefault visit.root (visit.surface w) := by
  refine ⟨v.settlesDefault root, fun link => ?_, fun w visit => ?_⟩
  · rw [errors_surface, errors_surface]
    rfl
  · rw [visit.surface_unfold w]
    exact (visit.linked w).settlesDefault visit.root

end ModuleView

end ModuleMock
