import ModuleMock.Script.Token

/-!
# Goals of the grammar

The rules of the grammar call each other in circles. Each rule therefore takes a `Grammar`, the parser of every goal,
as an argument; `Script.Grammar.Closure` ties the knot.
-/

namespace ModuleMock.Script.Grammar

open ModuleMock.Syntax

inductive Goal where
  | statement
  | block
  /-- One expression or several with commas between them. -/
  | expressions (e : Ending)
  | expression (e : Ending)
  /-- An operand with its prefix operators. -/
  | unary (e : Ending)
  | type (e : Ending)
  /-- A type that needs no parentheses before an operator. -/
  | typeOperand (e : Ending)
  | pattern
  | classBody
  | objectType (f : Form)
  | element

end ModuleMock.Script.Grammar

namespace ModuleMock.Script

/-- A parser for every goal. -/
abbrev Grammar := Grammar.Goal → Parser Fragment

end ModuleMock.Script
