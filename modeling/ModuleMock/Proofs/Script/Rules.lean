import ModuleMock.Proofs.Script.Atoms
import ModuleMock.Script.Repair

/-!
# What the grammar yields

Every rule of the grammar yields sound nodes if the grammar it is given does. Most instances are those of the parts put
together; where a rule looks at what it has read, its cases are split first.
-/

namespace ModuleMock.Script.Grammar

open ModuleMock.Syntax

/-- Goals whose nodes are of plain forms. -/
@[reducible] def Goal.isPlain : Goal → Bool
  | .objectType f => f.isPlain
  | _ => true

/-- Every goal yields sound nodes. -/
class IsSound (g : Grammar) : Prop where
  yields : ∀ goal : Goal, goal.isPlain = true → Yields (g goal)

instance {g : Grammar} [IsSound g] {goal : Goal} [h : Holds goal.isPlain] : Yields (g goal) :=
  IsSound.yields goal h.eq_true

-- the instances of a rule are as large as the rule
set_option synthInstance.maxSize 2000

section Rules

variable {g : Grammar} [IsSound g] {e : Ending} {f : Form}

/-! ## Types -/

instance : Yields (typeArguments g) := by unfold typeArguments; infer_instance

instance : Yields (typeParameter g) := by unfold typeParameter; infer_instance

instance : Yields (typeParameters g) := by unfold typeParameters; infer_instance

instance : Yields (typePredicate g e) := by unfold typePredicate; infer_instance

instance : Yields (assertion g e) := by unfold assertion; infer_instance

instance : Yields (typeAscription g e) := by unfold typeAscription; infer_instance

instance : Yields (resultType g e) := by unfold resultType; infer_instance

instance : Yields (annotated g e) := by unfold annotated; infer_instance

instance : Yields (decorator g) := by unfold decorator; infer_instance

instance : Yields (decorators g) := by unfold decorators; infer_instance

instance {next : Parser Fragment} {w : String} : Yields (modifierBefore next w none) := by
  unfold modifierBefore
  infer_instance

instance {next : Parser Fragment} {w : String} [Holds f.isPlain] : Yields (modifierBefore next w (some f)) := by
  unfold modifierBefore
  infer_instance

instance : Yields (parameterModifiers g) := by unfold parameterModifiers; infer_instance

instance : Yields (parameter g) := by unfold parameter; infer_instance

instance : Yields (parameters g) := by unfold parameters; infer_instance

instance : Yields (signature g e) := by unfold signature; infer_instance

instance {w : String} : Yields (memberModifier e w none) := by
  unfold memberModifier
  refine yields_bind fun read => yields_bind fun _ => yields_bind fun _ => yields_bind fun next => ?_
  split <;> infer_instance

instance {w : String} [Holds f.isPlain] : Yields (memberModifier e w (some f)) := by
  unfold memberModifier
  refine yields_bind fun read => yields_bind fun _ => yields_bind fun _ => yields_bind fun next => ?_
  split <;> infer_instance

instance {words : List String} : Yields (memberModifiers e words) := by
  unfold memberModifiers
  infer_instance

instance : Yields (indexSignature g) := by unfold indexSignature; infer_instance

instance : Yields (typeMember g) := by unfold typeMember; infer_instance

instance [Holds f.isPlain] : Yields (objectType g f) := by
  unfold objectType
  infer_instance

instance : Yields predefinedType := by unfold predefinedType; infer_instance

instance : Yields literalType := by unfold literalType; infer_instance

instance : Yields (typeCallArguments g) := by unfold typeCallArguments; infer_instance

instance : Yields (queriedValue g e) := by unfold queriedValue; infer_instance

instance : Yields (tupleMember g) := by unfold tupleMember; infer_instance

instance : Yields (namedType g e) := by unfold namedType; infer_instance

instance : Yields (importedType g e) := by unfold importedType; infer_instance

instance : Yields (functionType g e) := by unfold functionType; infer_instance

instance : Yields (constructorType g e) := by unfold constructorType; infer_instance

instance {whole part : Form} {inner : Parser Fragment} [Holds whole.isPlain] [Holds part.isPlain] [h : Yields inner] :
    Yields (templateOf whole part inner) :=
  ⟨gives_templateOf Holds.eq_true h fun t cs _ => shape_of_isPlain Holds.eq_true t cs⟩

instance : Yields (plainType g e) := by
  unfold plainType
  refine yields_bind fun w => ?_
  split <;> infer_instance

/-- Brackets after a type, by the fuel that is left. -/
theorem yields_typeBrackets {start : Cursor} : ∀ (fuel : Nat) (n : Node), Ok n → Yields (typeBrackets g e start fuel n)
  | 0, n, hn => by
    unfold typeBrackets
    infer_instance
  | fuel + 1, n, hn => by
    have ih (m : {m : Node // ok m}) : Yields (typeBrackets g e start fuel m.1) :=
      yields_typeBrackets fuel m.1 inferInstance
    unfold typeBrackets
    infer_instance

instance {start : Cursor} {fuel : Nat} {n : Node} [hn : Ok n] : Yields (typeBrackets g e start fuel n) :=
  yields_typeBrackets fuel n hn

instance : Yields (typeOperand g e) := by
  unfold typeOperand
  refine yields_bind fun s => yields_bind fun extras => yields_bind fun start => yields_bind fun read => ?_
  exact yields_last read inferInstance

instance {operator : String} {operand : Parser Fragment} [Holds f.isPlain] [Yields operand] :
    Yields (joinedTypes e operator f operand) := by
  unfold joinedTypes
  infer_instance

instance : Yields (enclosedResultType g) := by
  unfold enclosedResultType
  refine yields_labelled (yields_phrase (yields_bind fun colon => yields_bind fun s => yields_bind fun extras => ?_))
  refine yields_bind fun start => yields_bind fun read => ?_
  exact yields_last read inferInstance

instance : Yields (type g e) := by unfold type; infer_instance

/-! ## Patterns -/

instance : Yields (patternItem g) := by unfold patternItem; infer_instance

instance : Yields (restPattern g) := by unfold restPattern; infer_instance

instance : Yields (objectPatternItem g) := by unfold objectPatternItem; infer_instance

instance : Yields (objectPattern g) := by unfold objectPattern; infer_instance

instance : Yields (arrayPattern g) := by unfold arrayPattern; infer_instance

instance : Yields (destructuring g) := by unfold destructuring; infer_instance

/-- Member accesses after an assignable expression, by the fuel that is left. -/
theorem yields_placeTail {start : Cursor} : ∀ (fuel : Nat) (n : Node), Ok n → Yields (placeTail g start fuel n)
  | 0, n, hn => by
    unfold placeTail
    infer_instance
  | fuel + 1, n, hn => by
    have ih (m : {m : Node // ok m}) : Yields (placeTail g start fuel m.1) := yields_placeTail fuel m.1 inferInstance
    unfold placeTail
    infer_instance

instance {start : Cursor} {fuel : Nat} {n : Node} [hn : Ok n] : Yields (placeTail g start fuel n) :=
  yields_placeTail fuel n hn

instance : Yields (place g) := by
  unfold place
  refine yields_bind fun s => yields_bind fun extras => yields_bind fun start => yields_bind fun first => ?_
  exact yields_last first inferInstance

instance : Yields (pattern g) := by unfold pattern; infer_instance

instance : Yields (binding g) := by unfold binding; infer_instance

/-! ## Expressions -/

instance : Yields (spread g) := by unfold spread; infer_instance

instance : Yields (listItem g) := by unfold listItem; infer_instance

instance : Yields (arguments g) := by unfold arguments; infer_instance

instance : Yields (array g) := by unfold array; infer_instance

instance : Yields (method g) := by unfold method; infer_instance

instance : Yields shorthand := by unfold shorthand; infer_instance

instance : Yields (objectItem g) := by unfold objectItem; infer_instance

instance : Yields (object g) := by unfold object; infer_instance

instance {plain generator : Form} {name : Parser Fragment} [Holds plain.isPlain] [Holds generator.isPlain]
    [Yields name] : Yields (functionWith g plain generator name) := by unfold functionWith; infer_instance

instance : Yields (functionExpression g) := by unfold functionExpression; infer_instance

instance : Yields (heritage g) := by unfold heritage; infer_instance

instance : Yields className := by unfold className; infer_instance

instance {lead name : Parser Fragment} [Holds f.isPlain] [Yields lead] [Yields name] :
    Yields (classWith g f lead name) := by unfold classWith; infer_instance

instance : Yields (classExpression g) := by unfold classExpression; infer_instance

instance : Yields (arrowBody g e) := by unfold arrowBody; infer_instance

instance : Yields (arrowWithList g e) := by unfold arrowWithList; infer_instance

instance : Yields (arrowWithName g e) := by unfold arrowWithName; infer_instance

instance : Yields identifier := by unfold identifier; infer_instance

instance : Yields (parenthesized g) := by unfold parenthesized; infer_instance

/-- Member accesses after `new`, by the fuel that is left. -/
theorem yields_constructedTail {start : Cursor} : ∀ (fuel : Nat) (n : Node), Ok n →
    Yields (constructedTail g start fuel n)
  | 0, n, hn => by
    unfold constructedTail
    infer_instance
  | fuel + 1, n, hn => by
    have ih (m : {m : Node // ok m}) : Yields (constructedTail g start fuel m.1) :=
      yields_constructedTail fuel m.1 inferInstance
    unfold constructedTail
    infer_instance

instance {start : Cursor} {fuel : Nat} {n : Node} [hn : Ok n] : Yields (constructedTail g start fuel n) :=
  yields_constructedTail fuel n hn

instance {primary : Parser Fragment} [Yields primary] : Yields (newExpression g primary) := by
  unfold newExpression
  refine yields_firstOf inferInstance (yields_firstOf (yields_phrase ?_) inferInstance)
  refine yields_bind fun s => yields_bind fun head => yields_bind fun extras => yields_bind fun start => ?_
  refine yields_bind fun callee => ?_
  exact yields_last callee inferInstance

instance {again : Parser Fragment} {w : String} [Yields again] : Yields (wordOperand g e again w) := by
  unfold wordOperand
  split <;> infer_instance

instance : Yields (markOperand g e) := by
  unfold markOperand
  refine yields_bind fun ⟨⟨dialect, size, patches⟩, _⟩ => yields_bind fun next => ?_
  cases dialect <;> split <;> infer_instance

/-- Primary expressions, by the fuel that is left. -/
theorem yields_primary : ∀ fuel : Nat, Yields (primary g e fuel)
  | 0 => by
    unfold primary
    infer_instance
  | fuel + 1 => by
    have ih := yields_primary fuel
    unfold primary
    infer_instance

instance {fuel : Nat} : Yields (primary g e fuel) := yields_primary fuel

instance {n : Node} [Ok n] : Yields (postfixOnce g n) := by
  unfold postfixOnce
  infer_instance

/-- Calls and accesses after an expression, by the fuel that is left. -/
theorem yields_postfixTail {start : Cursor} : ∀ (fuel : Nat) (n : Node), Ok n → Yields (postfixTail g e start fuel n)
  | 0, n, hn => by
    unfold postfixTail
    infer_instance
  | fuel + 1, n, hn => by
    have ih (m : {m : Node // ok m}) : Yields (postfixTail g e start fuel m.1) :=
      yields_postfixTail fuel m.1 inferInstance
    unfold postfixTail
    refine yields_bind fun _ => yields_ite inferInstance (yields_orElse inferInstance (yields_orElse ?_ inferInstance))
    refine yields_bind fun x => ?_
    obtain ⟨⟨form, parts⟩, hform, hparts⟩ := x
    have : Holds form.isPlain := ⟨hform⟩
    have : Ok parts := ⟨hparts⟩
    infer_instance

instance {start : Cursor} {fuel : Nat} {n : Node} [hn : Ok n] : Yields (postfixTail g e start fuel n) :=
  yields_postfixTail fuel n hn

instance : Yields (Parser.firstOf prefixMarks) := by unfold prefixMarks; infer_instance

instance : Yields (unary g e) := by
  unfold unary
  refine yields_bind fun s => yields_bind fun w => ?_
  split
  case h_5 =>
    refine yields_orElse inferInstance (yields_orElse inferInstance ?_)
    refine yields_bind fun extras => yields_bind fun start => yields_bind fun operand => ?_
    exact yields_last operand inferInstance
  all_goals infer_instance

/-- Operators after an operand, by the fuel that is left. -/
theorem yields_binaryTail : ∀ (fuel least : Nat) (start : Cursor) (n : Node), Ok n →
    Yields (binaryTail g e start fuel least n)
  | 0, least, start, n, hn => by
    unfold binaryTail
    infer_instance
  | fuel + 1, least, start, n, hn => by
    have ih (start : Cursor) (least : Nat) (m : {m : Node // ok m}) : Yields (binaryTail g e start fuel least m.1) :=
      yields_binaryTail fuel least start m.1 inferInstance
    unfold binaryTail
    refine yields_bind fun _ => yields_ite inferInstance (yields_bind fun operator => ?_)
    split
    · infer_instance
    · refine yields_ite inferInstance (yields_ite inferInstance (yields_ite inferInstance ?_))
      refine yields_orElse ?_ inferInstance
      extract_lets tighter next
      have hnext (sign : {sign : Fragment // ok sign}) : Yields (next sign.1) := by
        refine yields_bind fun extras => yields_bind fun from' => yields_bind fun operand => ?_
        split
        · infer_instance
        · rename_i m _ h
          have := ih from'.1 tighter ⟨m, sound_of_reverse h operand.2⟩
          infer_instance
      exact yields_ite (yields_bind hnext) (yields_bind hnext)

instance {start : Cursor} {fuel least : Nat} {n : Node} [hn : Ok n] : Yields (binaryTail g e start fuel least n) :=
  yields_binaryTail fuel least start n hn

instance : Yields (conditional g e) := by
  unfold conditional
  refine yields_bind fun s => yields_bind fun extras => yields_bind fun start => yields_bind fun operand => ?_
  exact yields_last operand inferInstance

instance : Yields assignMark := by unfold assignMark; infer_instance

instance : Yields (assigned g e) := by
  unfold assigned
  refine yields_bind fun extras => yields_bind fun start => yields_bind fun read => ?_
  exact yields_last read inferInstance

instance : Yields (yieldExpression g e) := by unfold yieldExpression; infer_instance

instance : Yields (patternAssignment g e) := by unfold patternAssignment; infer_instance

instance : Yields (usingAssignment g e) := by unfold usingAssignment; infer_instance

instance : Yields (bareExpression g e) := by
  unfold bareExpression
  refine yields_bind fun w => ?_
  split <;> infer_instance

instance : Yields (expression g e) := by unfold expression; infer_instance

instance : Yields (expressions g e) := by unfold expressions; infer_instance

/-! ## Classes and declarations -/

instance : Yields (classMethod g) := by unfold classMethod; infer_instance

instance : Yields (field g) := by unfold field; infer_instance

instance : Yields (classMember g) := by unfold classMember; infer_instance

instance : Yields (classBody g) := by unfold classBody; infer_instance

instance : Yields looseEnd := by unfold looseEnd; infer_instance

instance : Yields (declarator g) := by unfold declarator; infer_instance

instance : Yields (declarators g) := by unfold declarators; infer_instance

instance : Yields (lexicalDeclaration g) := by unfold lexicalDeclaration; infer_instance

instance : Yields (variableDeclaration g) := by unfold variableDeclaration; infer_instance

instance : Yields (functionDeclaration g) := by unfold functionDeclaration; infer_instance

instance : Yields (classDeclaration g) := by unfold classDeclaration; infer_instance

instance : Yields (abstractClassDeclaration g) := by unfold abstractClassDeclaration; infer_instance

instance : Yields (interfaceDeclaration g) := by unfold interfaceDeclaration; infer_instance

instance : Yields (typeAlias g) := by unfold typeAlias; infer_instance

instance : Yields (enumMember g) := by unfold enumMember; infer_instance

instance : Yields (enumDeclaration g) := by unfold enumDeclaration; infer_instance

instance : Yields dottedName := by unfold dottedName; infer_instance

instance : Yields (moduleRest g) := by unfold moduleRest; infer_instance

instance {w : String} : Yields (contextual w) := by unfold contextual; infer_instance

instance : Yields (moduleDeclaration g) := by unfold moduleDeclaration; infer_instance

instance : Yields (namespaceDeclaration g) := by unfold namespaceDeclaration; infer_instance

instance : Yields importAlias := by unfold importAlias; infer_instance

instance : Yields (plainDeclaration g) := by
  unfold plainDeclaration
  refine yields_bind fun w => ?_
  split <;> infer_instance

instance {head : Parser Fragment} [Yields head] : Yields (ambientDeclaration g head) := by
  unfold ambientDeclaration
  infer_instance

instance : Yields (declaration g) := by unfold declaration; infer_instance

instance : Yields (exportedDeclaration g) := by unfold exportedDeclaration; infer_instance

/-! ## Statements -/

instance : Yields fromClause := by unfold fromClause; infer_instance

instance {aliasName : Parser Fragment} [Holds f.isPlain] [Yields aliasName] : Yields (specifier f aliasName) := by
  unfold specifier
  infer_instance

instance : Yields namedImports := by unfold namedImports; infer_instance

instance : Yields namespaceImport := by unfold namespaceImport; infer_instance

instance : Yields importClause := by unfold importClause; infer_instance

instance : Yields importRequireClause := by unfold importRequireClause; infer_instance

instance : Yields importRest := by unfold importRest; infer_instance

instance : Yields (importStatement g) := by unfold importStatement; infer_instance

instance : Yields exportClause := by unfold exportClause; infer_instance

instance : Yields namespaceExport := by unfold namespaceExport; infer_instance

instance : Yields (defaultExport g) := by unfold defaultExport; infer_instance

instance : Yields (exportStatement g) := by unfold exportStatement; infer_instance

instance : Yields (header g) := by unfold header; infer_instance

instance : Yields (ifStatement g) := by unfold ifStatement; infer_instance

instance : Yields (switchStatement g) := by unfold switchStatement; infer_instance

instance : Yields (memberLoopHead g) := by unfold memberLoopHead; infer_instance

instance : Yields (counterLoopHead g) := by unfold counterLoopHead; infer_instance

instance : Yields (forStatement g) := by unfold forStatement; infer_instance

instance : Yields (whileStatement g) := by unfold whileStatement; infer_instance

instance : Yields (doStatement g) := by unfold doStatement; infer_instance

instance : Yields (tryStatement g) := by unfold tryStatement; infer_instance

instance : Yields (withStatement g) := by unfold withStatement; infer_instance

instance {w : String} [Holds f.isPlain] : Yields (jump f w) := by unfold jump; infer_instance

instance : Yields (returnStatement g) := by unfold returnStatement; infer_instance

instance : Yields (expressionStatement g) := by unfold expressionStatement; infer_instance

instance : Yields (labeledStatement g) := by unfold labeledStatement; infer_instance

/-- Statements that begin with a keyword. -/
theorem yields_keywordStatement {w : String} {p : Parser Fragment} (h : keywordStatement? g w = some p) : Yields p := by
  unfold keywordStatement? at h
  split at h <;> cases h <;> infer_instance

instance {w : String} : Yields (wordStatement g w) := by
  unfold wordStatement
  split
  · rename_i h
    exact yields_keywordStatement h
  · split <;> infer_instance

instance : Yields (statement g) := by
  unfold statement
  refine yields_bind fun w => yields_ite inferInstance (yields_bind fun next => ?_)
  split <;> infer_instance

instance : Yields (statements g) := by unfold statements; infer_instance

instance : Yields (block g) := by unfold block; infer_instance

/-! ## Embedded markup -/

instance : Yields markupName := by unfold markupName; infer_instance

instance : Yields elementName := by unfold elementName; infer_instance

instance : Yields (embedded g) := by unfold embedded; infer_instance

/-- The value of an attribute is exempt. -/
theorem gives_attributeText :
    Gives (fun a : Fragment => ∀ n ∈ a, isExempt (.form .jsxAttribute) n = false → Sound n) attributeText := by
  refine ⟨fun h n hn he => ?_⟩
  have hexempt : ∀ e m, isExempt (.form .jsxAttribute) (.mk (.form .string) none e m []) = true := fun _ _ => rfl
  obtain ⟨extras, start, _, hextras, ⟨place, rfl⟩ | ⟨k, -, rfl, rfl⟩⟩ := lexeme_found h
  · rcases List.mem_append.1 hn with hn | hn
    · exact (gives_trivia.of_found hextras n hn).sound
    · rw [List.mem_singleton.1 hn, hexempt] at he
      cases he
  · rcases List.mem_append.1 hn with hn | hn
    · exact (gives_trivia.of_found hextras n hn).sound
    · rw [List.mem_singleton.1 hn, Cursor.nodeTo, hexempt] at he
      cases he

instance : Yields (attribute' g) := by
  have weaken {p : Parser Fragment} (h : Yields p) :
      Gives (fun a => ∀ n ∈ a, isExempt (.form .jsxAttribute) n = false → Sound n) p :=
    h.gives.imp fun _ ha n hn _ => ha n hn
  have hvalue : Gives (fun a : Fragment => ∀ n ∈ a, isExempt (.form .jsxAttribute) n = false → Sound n)
      (Parser.firstOf [attributeText, embedded g, g .element]) := by
    refine gives_firstOf fun p hp => ?_
    simp only [List.mem_cons, List.not_mem_nil, or_false] at hp
    obtain rfl | rfl | rfl := hp
    · exact gives_attributeText
    · exact weaken inferInstance
    · exact weaken inferInstance
  refine yields_firstOf ⟨gives_phraseOf (Gives.imp (gives_sequence fun p hp => ?_) fun _ h => ⟨fun _ => trivial, h⟩)⟩
    inferInstance
  simp only [List.mem_cons, List.not_mem_nil, or_false] at hp
  obtain rfl | rfl | rfl := hp
  · exact weaken inferInstance
  · exact weaken inferInstance
  · refine gives_optional (gives_sequence fun p hp => ?_)
    simp only [List.mem_cons, List.not_mem_nil, or_false] at hp
    obtain rfl | rfl := hp
    · exact weaken inferInstance
    · exact hvalue

instance : Yields elementText := by unfold elementText; infer_instance

instance : Yields (elementContent g) := by unfold elementContent; infer_instance

instance : Yields (element g) := by unfold element; infer_instance

end Rules

/-! ## The grammar as a whole -/

/-- One level of rules is sound if the level below is. -/
theorem isSound_rule {g : Grammar} (hg : IsSound g) : IsSound (rule g) := by
  refine ⟨fun goal h => ?_⟩
  have : Holds goal.isPlain := ⟨h⟩
  cases goal <;> unfold rule <;> infer_instance

/-- The grammar is sound at every depth. -/
theorem isSound_grammar : ∀ fuel : Nat, IsSound (grammar fuel)
  | 0 => ⟨fun _ _ => ⟨⟨fun h => by cases h⟩⟩⟩
  | fuel + 1 => isSound_rule (isSound_grammar fuel)

end ModuleMock.Script.Grammar

namespace ModuleMock.Script

open ModuleMock.Syntax

/-- A program in a sound grammar has sound statements. -/
theorem yields_program {g : Grammar} (hg : Grammar.IsSound g) : Yields (program g) := by
  unfold program
  infer_instance

/-- What is read of a program is sound, whichever patches were made. -/
theorem ok_readProgram {dialect : Dialect} {patches : List Patch} {text : String} {nodes : List Node}
    (h : readProgram dialect patches text = .ok nodes) : ok (nodes : Fragment) := by
  unfold readProgram at h
  dsimp only at h
  split at h <;> cases h
  rename_i hfound
  exact (yields_program (Grammar.isSound_grammar _)).gives.of_found hfound

/-- Whatever is tried to mend a script, its nodes are sound. -/
theorem ok_search {dialect : Dialect} {text : String} {fuel : Nat} {best : Option Finding} {attempts : List Attempt}
    (hbest : ∀ f ∈ best, ok (f.nodes : Fragment)) :
    ∀ f ∈ search dialect text fuel best attempts, ok (f.nodes : Fragment) := by
  fun_induction search dialect text fuel best attempts with
  | case1 => exact hbest
  | case2 => exact hbest
  | case3 => exact hbest
  | case4 fuel best a rest _ nodes hread found ih =>
    refine ih fun f hf => ?_
    have hfound : ok (found.nodes : Fragment) := ok_readProgram hread
    cases best with
    | none =>
      obtain rfl := Option.some.inj hf
      exact hfound
    | some b =>
      obtain rfl := Option.some.inj hf
      simp only [Option.map_some, Option.getD_some, Finding.better]
      split
      · exact hfound
      · exact hbest b rfl
  | case5 _ _ _ _ _ _ _ _ ih => exact ih hbest
  | case6 _ _ _ _ _ _ _ _ _ _ _ _ _ ih => exact ih hbest

/-- Every parse gives a sound tree. -/
theorem sound_parse (dialect : Dialect) (text : String) : Sound (parse dialect text) := by
  unfold parse
  dsimp only
  split
  · rename_i h
    exact sound_nodeTo rfl (ok_readProgram h)
  · split
    · rename_i nodes h
      obtain ⟨f, hf, rfl⟩ := Option.map_eq_some_iff.1 h
      exact sound_nodeTo rfl (ok_search (by simp) f hf)
    · exact sound_nodeTo rfl (by simp)

end ModuleMock.Script
