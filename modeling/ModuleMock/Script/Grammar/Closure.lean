import ModuleMock.Script.Grammar.Markup
import ModuleMock.Script.Grammar.Classes
import ModuleMock.Script.Grammar.Statements

/-!
# The grammar as a whole

`rule` gives one step of every goal; `grammar` iterates it as often as its fuel says.
-/

namespace ModuleMock.Script.Grammar

open ModuleMock.Syntax

/-- The rule of a goal, in terms of a parser for every goal. -/
def rule (g : Grammar) : Goal → Parser Fragment
  | .statement => statement g
  | .block => block g
  | .expressions e => expressions g e
  | .expression e => expression g e
  | .unary e => unary g e
  | .type e => type g e
  | .typeOperand e => typeOperand g e
  | .pattern => pattern g
  | .classBody => classBody g
  | .objectType f => objectType g f
  | .element => element g

/-- The grammar, in which rules may be nested as deep as the fuel says. -/
def grammar : Nat → Goal → Setting → Cursor → Nat → Reply Fragment
  | 0, _, _, _, r => .stuck r
  | fuel + 1, goal, s, c, r => rule (grammar fuel) goal s c r

end ModuleMock.Script.Grammar
