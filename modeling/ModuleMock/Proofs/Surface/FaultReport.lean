import ModuleMock.Proofs.Surface.DefaultExport

/-!
# The fault that is reported

A module with faults reports the line of one of them. The search behind the report leaves out what is flagged as clean,
and still finds the fault that comes first in preorder (`flaggedFault_first_in_preorder`).
-/

namespace ModuleMock

open Syntax

namespace ModuleView

variable {root : Node}

/-- The report of the first fault comes before all others. -/
theorem errors_of_firstFault (v : ModuleView) {a : Address} {fault : Node} (h : root.FirstFault a fault) :
    (v.surface root).errors =
      (Diagnostic.faultAt fault.line).message v.path :: (defaultReports root).map (·.message v.path) := by
  have hfound : root.firstFault? = some fault := by
    rw [Node.firstFault?_eq_find?]
    exact Node.find?_preorder_eq_some.2 ⟨a, h⟩
  rw [errors_surface, faultReport, hfound]
  rfl

/-- Without faults in the tree only default exports are reported. -/
theorem errors_of_faultless (v : ModuleView) (h : root.Faultless) :
    (v.surface root).errors = (defaultReports root).map (·.message v.path) := by
  have hfound : root.firstFault? = none := by
    rw [Node.firstFault?_eq_find?]
    exact Node.find?_preorder_eq_none.2 h
  rw [errors_surface, faultReport, hfound]
  rfl

end ModuleView

/-- **The search finds the first fault.** If every node of a tree is flagged exactly where a fault stands at it or below
it, the search that enters flagged nodes only gives what a search through all nodes gives: the fault that comes first in
preorder, and none exactly if the tree has none. The flag in use is of this kind on every tree. A module reports the line
of that fault before anything else, and without faults it reports no such line. -/
theorem flaggedFault_first_in_preorder (flagged : Node → Bool) (root : Node) (h : Node.FlagsFaults flagged root) :
    root.flaggedFault? flagged = root.preorder.find? Node.isFault ∧
      (∀ fault, root.flaggedFault? flagged = some fault ↔ ∃ a, root.FirstFault a fault) ∧
      (root.flaggedFault? flagged = none ↔ root.Faultless) ∧
      Node.FlagsFaults Node.hasFault root ∧ root.firstFault? = root.flaggedFault? flagged ∧
      ∀ v : ModuleView,
        (∀ a fault, root.FirstFault a fault → (v.surface root).errors =
          (Diagnostic.faultAt fault.line).message v.path ::
            (ModuleView.defaultReports root).map (·.message v.path)) ∧
        (root.Faultless → (v.surface root).errors = (ModuleView.defaultReports root).map (·.message v.path)) := by
  rw [Node.flaggedFault?_eq_find? h]
  refine ⟨rfl, fun fault => Node.find?_preorder_eq_some, Node.find?_preorder_eq_none, Node.flagsFaults_hasFault root,
    Node.firstFault?_eq_find? root, fun v => ⟨?_, ?_⟩⟩
  · intro a fault hfirst
    exact v.errors_of_firstFault hfirst
  · intro hnone
    exact v.errors_of_faultless hnone

/-- A sound statement, a list without its closing mark, and skipped text with skipped text in it. -/
def brokenTree : Node :=
  .mk (.form .program) none ⟨0, 10, 0, "f;\n[1;\n(@)"⟩ false [
    .mk (.form .expressionStatement) none ⟨0, 2, 0, "f;"⟩ false [
      .mk (.form .identifier) none ⟨0, 1, 0, "f"⟩ false [],
      .mk (.token ";") none ⟨1, 2, 0, ";"⟩ false []],
    .mk (.form .expressionStatement) none ⟨3, 6, 1, "[1;"⟩ false [
      .mk (.form .array) none ⟨3, 5, 1, "[1"⟩ false [
        .mk (.token "[") none ⟨3, 4, 1, "["⟩ false [],
        .mk (.form .number) none ⟨4, 5, 1, "1"⟩ false [],
        .mk (.token "]") none ⟨5, 5, 1, ""⟩ true []],
      .mk (.token ";") none ⟨5, 6, 1, ";"⟩ false []],
    .mk (.form .error) none ⟨7, 10, 2, "(@)"⟩ false [
      .mk (.form .error) none ⟨8, 9, 2, "@"⟩ false []]]

/-- The mark that is missing stands deeper than the skipped text, but before it. -/
theorem flaggedFault_first_in_preorder_broken : Node.FlagsFaults Node.hasFault brokenTree ∧
    ∃ a fault, brokenTree.FirstFault a fault ∧ fault.kind = .token "]" ∧ fault.isMissing = true ∧
      (Surface.ofTree "x.ts" brokenTree fun _ => none).errors = ["Syntax error in x.ts at line 2"] := by
  have hflags := Node.flagsFaults_hasFault brokenTree
  obtain ⟨-, hfirst, -, -, -, hreport⟩ := flaggedFault_first_in_preorder Node.hasFault brokenTree hflags
  have hfound : brokenTree.flaggedFault? Node.hasFault = some (.mk (.token "]") none ⟨5, 5, 1, ""⟩ true []) := by rfl
  obtain ⟨a, ha⟩ := (hfirst _).1 hfound
  refine ⟨hflags, a, _, ha, rfl, rfl, ?_⟩
  exact ((hreport ⟨⟨DeclarationTable.ofTree brokenTree, fun _ => none⟩, "x.ts"⟩).1 a _ ha).trans (by rfl)

end ModuleMock
