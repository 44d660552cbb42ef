import Mathlib.Tactic.SplitIfs
import ModuleMock.Bundle.Purify

/-!
# Names that purified bundles declare

Every statement is purified for itself, with no memory of those before it. A statement is turned into a declaration
exactly if it gives a member of the exports a value of its own (`GivesOwn`, `verdict_eq_declare`): void values, links of
a chain and values that only repeat the name are removed. So the declared names are those of such statements, and a name
is declared twice exactly where two statements give it values (`declaredNames_nodup_iff`).
-/

namespace ModuleMock.Bundle

open Syntax

/-- The expression assigns to a member of the exports. -/
inductive AssignsTo (expr : Node) (name : String) : Prop
  | intro {left object property : Node} (form : expr.isForm .assignmentExpression = true)
      (left_eq : expr.child? .left = some left) (member : left.isForm .memberExpression = true)
      (object_eq : left.child? .object = some object) (exports : object.text = "exports")
      (property_eq : left.child? .property = some property) (name_eq : property.text = name)

/-- The statement gives a member of the exports a value of its own: one that is neither undefined, nor handed on from
another member of the exports, nor the name itself. The default export is no such member. -/
inductive GivesOwn (n : Node) (name : String) (value : Node) : Prop
  | intro {expr : Node} (statement : n.isForm .expressionStatement = true) (first : n.codeChildren.head? = some expr)
      (assigns : AssignsTo expr name) (value_eq : expr.child? .right = some value) (named : name ≠ "default")
      (defined : isVoid value = false) (unchained : ∀ inner, ¬ AssignsTo value inner)
      (apart : Text.trim value.text ≠ name)

/-- The name that a replacement declares: what stands between `const` and the next blank. -/
def declaredName? (text : List Char) : Option String :=
  if "const ".toList.isPrefixOf text then some (String.ofList ((text.drop 6).takeWhile (· ≠ ' '))) else none

/-- The names that edits declare. -/
def declaredNames (edits : List Edit) : List String := edits.filterMap fun e => declaredName? e.replacement

/-! ## Assignments -/

variable {n expr : Node} {name : String}

/-- A member expression has an object and a property. -/
theorem memberParts?_eq_some {object : String} :
    memberParts? n = some (object, name) ↔
      ∃ o p, n.child? .object = some o ∧ o.text = object ∧ n.child? .property = some p ∧ p.text = name := by
  unfold memberParts?
  cases n.child? .object <;> cases n.child? .property <;> simp

/-- An expression assigns to an export if its left side is a member of `exports`. -/
theorem assignsTo_iff :
    AssignsTo expr name ↔ expr.isForm .assignmentExpression = true ∧ assignedMember? expr = some ("exports", name) := by
  unfold assignedMember?
  constructor
  · rintro ⟨form, hleft, hmember, hobject, hexports, hproperty, hname⟩
    rw [hleft]
    exact ⟨form, (if_pos hmember).trans (memberParts?_eq_some.2 ⟨_, _, hobject, hexports, hproperty, hname⟩)⟩
  · rintro ⟨form, h⟩
    split at h
    · rename_i left hleft
      split at h
      · rename_i hmember
        obtain ⟨o, p, hobject, hexports, hproperty, hname⟩ := memberParts?_eq_some.1 h
        exact ⟨form, hleft, hmember, hobject, hexports, hproperty, hname⟩
      · cases h
    · cases h

/-- A value assigns to no export if it is no such assignment. -/
theorem assignsExport_eq_false {value : Node} : assignsExport value = false ↔ ∀ inner, ¬ AssignsTo value inner := by
  simp only [assignsTo_iff, assignsExport, Bool.and_eq_false_iff, decide_eq_false_iff_not, Option.map_eq_some_iff]
  constructor
  · rintro (h | h) inner ⟨hform, hmember⟩
    · rw [hform] at h
      cases h
    · exact h ⟨_, hmember, rfl⟩
  · intro h
    by_cases hform : value.isForm .assignmentExpression = true
    · refine .inr ?_
      rintro ⟨⟨object, inner⟩, hmember, rfl⟩
      exact h inner ⟨hform, hmember⟩
    · exact .inl (Bool.eq_false_iff.2 hform)

/-- The assignments that become declarations. -/
theorem assignmentVerdict_eq_declare {text : String} :
    assignmentVerdict expr = .declare name text ↔
      ∃ value, assignedMember? expr = some ("exports", name) ∧ expr.child? .right = some value ∧ name ≠ "default" ∧
        isVoid value = false ∧ assignsExport value = false ∧ Text.trim value.text ≠ name ∧ value.text = text := by
  unfold assignmentVerdict
  constructor
  · intro h
    split at h
    · rename_i object property value hmember hright
      split_ifs at h with hmodule hexports hnamed hremoved
      · cases h
        obtain rfl : object = "exports" := Decidable.not_not.1 hexports
        simp only [Bool.or_eq_true, decide_eq_true_eq, not_or, Bool.not_eq_true] at hremoved
        exact ⟨value, hmember, hright, hnamed, hremoved.1.1, hremoved.1.2, hremoved.2, rfl⟩
    · cases h
  · rintro ⟨value, hmember, hright, hnamed, hvoid, hchain, hapart, rfl⟩
    rw [hmember, hright]
    simp [hnamed, hvoid, hchain, hapart]

/-- A declaration is made for a value of its own, and for nothing else. -/
theorem verdict_eq_declare {text : String} :
    verdict n = .declare name text ↔ ∃ value, GivesOwn n name value ∧ value.text = text := by
  unfold verdict
  constructor
  · intro h
    split_ifs at h with hstatement
    split at h
    · rename_i expr hfirst
      split_ifs at h with hcall hform
      obtain ⟨value, hmember, hright, hnamed, hvoid, hchain, hapart, htext⟩ := assignmentVerdict_eq_declare.1 h
      exact ⟨value, ⟨hstatement, hfirst, assignsTo_iff.2 ⟨hform, hmember⟩, hright, hnamed, hvoid,
        assignsExport_eq_false.1 hchain, hapart⟩, htext⟩
    · cases h
  · rintro ⟨value, @⟨expr, hstatement, hfirst, hassigns, hright, hnamed, hvoid, hchain, hapart⟩, htext⟩
    obtain ⟨hform, hmember⟩ := assignsTo_iff.1 hassigns
    have hcall : expr.isForm .callExpression = false := by
      have hkind := hform
      rw [Node.isForm, beq_iff_eq] at hkind
      simp [Node.isForm, hkind]
    rw [if_pos hstatement, hfirst]
    simp only [hcall, Bool.false_and, Bool.false_eq_true, if_false, hform, if_true]
    exact assignmentVerdict_eq_declare.2
      ⟨value, hmember, hright, hnamed, hvoid, assignsExport_eq_false.2 hchain, hapart, htext⟩

/-! ## Replacements -/

theorem replacement_removal (source : List Char) (start stop : Nat) : (removal source start stop).replacement = [] := by
  unfold removal
  dsimp only
  split_ifs
  · split <;> rfl
  · rfl

/-- A name ends at the blank that stands before the equals sign. -/
theorem declaredName?_declare (h : ' ' ∉ name.toList) (value : String) :
    declaredName? s!"const {name} = {value};".toList = some name := by
  have htext : s!"const {name} = {value};".toList =
      "const ".toList ++ (name.toList ++ ' ' :: ("= ".toList ++ (value.toList ++ [';']))) := by
    simp [toString]
  have hname : ∀ c ∈ name.toList, decide (c ≠ ' ') = true := by
    intro c hc
    exact decide_eq_true fun hblank => h (hblank ▸ hc)
  rw [htext, declaredName?, if_pos (by simp)]
  rw [show ("const ".toList ++ (name.toList ++ ' ' :: ("= ".toList ++ (value.toList ++ [';'])))).drop 6 =
    name.toList ++ ' ' :: ("= ".toList ++ (value.toList ++ [';'])) from rfl]
  rw [List.takeWhile_append_of_pos hname, List.takeWhile_cons_of_neg (by simp), List.append_nil, String.ofList_toList]

/-- What a statement is replaced by declares the name that it gives a value, and nothing otherwise. -/
theorem declaredName?_edit? (source : List Char) (h : ∀ name value, GivesOwn n name value → ' ' ∉ name.toList) :
    (edit? source n).bind (fun e => declaredName? e.replacement) = some name ↔ ∃ value, GivesOwn n name value := by
  have hdeclare : (∃ value, GivesOwn n name value) ↔ ∃ text, verdict n = .declare name text := by
    simp only [verdict_eq_declare]
    exact ⟨fun ⟨value, hvalue⟩ => ⟨_, value, hvalue, rfl⟩, fun ⟨_, value, hvalue, _⟩ => ⟨value, hvalue⟩⟩
  rw [hdeclare]
  cases hverdict : verdict n with
  | keep => simp [edit?, hverdict]
  | remove =>
    simp only [edit?, hverdict, Option.bind_some, replacement_removal]
    simp [declaredName?]
  | mount value =>
    simp only [edit?, hverdict, Option.bind_some]
    simp [declaredName?, toString]
  | declare own text =>
    obtain ⟨value, hvalue, -⟩ := verdict_eq_declare.1 hverdict
    simp only [edit?, hverdict, Option.bind_some]
    rw [declaredName?_declare (h own value hvalue)]
    simp

/-- **Purified bundles declare each name as often as it is given a value.** Let the names of the exports have no blanks.
Then the names that the replacements declare are those that top-level statements give values of their own, and each of
them is declared at most once exactly if no two statements give the same name a value. -/
theorem declaredNames_nodup_iff (source : List Char) (nodes : List Node)
    (hnames : ∀ n ∈ nodes, ∀ name value, GivesOwn n name value → ' ' ∉ name.toList) :
    (∀ name, name ∈ declaredNames (nodes.filterMap (edit? source)) ↔ ∃ n ∈ nodes, ∃ value, GivesOwn n name value) ∧
      ((declaredNames (nodes.filterMap (edit? source))).Nodup ↔
        nodes.Pairwise fun m n => ∀ name value, GivesOwn m name value → ∀ later, ¬ GivesOwn n name later) := by
  have hedit : ∀ n ∈ nodes, ∀ name, (edit? source n).bind (fun e => declaredName? e.replacement) = some name ↔
      ∃ value, GivesOwn n name value := fun n hn _ => declaredName?_edit? source (hnames n hn)
  rw [declaredNames, List.filterMap_filterMap]
  refine ⟨fun name => ?_, ?_⟩
  · rw [List.mem_filterMap]
    exact exists_congr fun n => and_congr_right fun hn => hedit n hn name
  · rw [List.Nodup, List.pairwise_filterMap]
    refine List.Pairwise.iff_of_mem fun {m n} hm hn => ?_
    constructor
    · intro h name value hvalue later hlater
      exact h name ((hedit m hm name).2 ⟨value, hvalue⟩) name ((hedit n hn name).2 ⟨later, hlater⟩) rfl
    · rintro h name hname _ hname' rfl
      obtain ⟨value, hvalue⟩ := (hedit m hm name).1 hname
      obtain ⟨later, hlater⟩ := (hedit n hn name).1 hname'
      exact h name value hvalue later hlater

/-- A bundle with a void assignment, a chain, a value that repeats its name, the default export, and values of their own
for two names. -/
def variedBundle : String :=
  "exports.a = exports.b = void 0;\nexports.a = 1;\nconst b = 2;\nexports.b = b;\nexports.default = a;\nexports.c = b;"

def variedNodes : List Node := (Script.parse .plain variedBundle).namedChildren

theorem declaredNames_nodup_varied :
    (∀ n ∈ variedNodes, ∀ name value, GivesOwn n name value → ' ' ∉ name.toList) ∧
      declaredNames (variedNodes.filterMap (edit? variedBundle.toList)) = ["a", "c"] ∧
      (∃ n ∈ variedNodes, ∃ value, GivesOwn n "c" value) ∧
      variedNodes.Pairwise fun m n => ∀ name value, GivesOwn m name value → ∀ later, ¬ GivesOwn n name later := by
  have hparsed : declaredNames (variedNodes.filterMap (edit? variedBundle.toList)) = ["a", "c"] ∧
      variedNodes.map verdict = [.remove, .declare "a" "1", .keep, .remove, .mount "a", .declare "c" "b"] := by
    decide +kernel
  obtain ⟨hdeclared, hverdicts⟩ := hparsed
  have hnames : ∀ n ∈ variedNodes, ∀ name value, GivesOwn n name value → ' ' ∉ name.toList := by
    intro n hn name value hvalue
    have hdeclare : .declare name value.text ∈ variedNodes.map verdict :=
      List.mem_map.2 ⟨n, hn, verdict_eq_declare.2 ⟨value, hvalue, rfl⟩⟩
    simp only [hverdicts, List.mem_cons, List.not_mem_nil, reduceCtorEq, Verdict.declare.injEq, false_or,
      or_false] at hdeclare
    rcases hdeclare with ⟨rfl, -⟩ | ⟨rfl, -⟩ <;> decide
  obtain ⟨hmem, hnodup⟩ := declaredNames_nodup_iff variedBundle.toList variedNodes hnames
  rw [hdeclared] at hmem hnodup
  exact ⟨hnames, hdeclared, (hmem "c").1 (by simp), hnodup.1 (by simp)⟩

def repeatingBundle : String := "exports.a = 1;\nexports.a = 1;\n"

/-- Two values for one name are two declarations of it, even if they are the same. -/
theorem purify_declares_twice :
    let edits := (Script.parse .plain repeatingBundle).namedChildren.filterMap (edit? repeatingBundle.toList)
    edits.map (·.replacement) = ["const a = 1;".toList, "const a = 1;".toList] ∧ ¬ (declaredNames edits).Nodup := by
  decide +kernel

end ModuleMock.Bundle
