import ModuleMock.Script.Grammar.Closure

/-!
# Whole scripts

`readProgram` reads all statements of a script, and is stuck where the script does not follow the grammar.
-/

namespace ModuleMock.Script

open ModuleMock.Syntax

/-- The first line of a script that names an interpreter. -/
def hashBangLength? : List Char → Option Nat
  | '#' :: '!' :: cs => some (2 + (cs.takeWhile fun c => c != '\n').length)
  | _ => none

/-- All statements up to the end of the text. -/
def program (g : Grammar) : Parser Fragment := do
  let first ← Parser.optional (lexeme (.form .hashBangLine) hashBangLength?)
  let all ← Grammar.statements g
  let rest ← trivia
  let stop ← Parser.here
  if stop.rest.isEmpty then return first ++ all ++ rest else Parser.refuse stop.index

/-- Reads a script with the given patches: its top-level nodes, or how far reading got. -/
def readProgram (dialect : Dialect) (patches : List Patch) (text : String) : Except Nat (List Node) :=
  let start := Cursor.start text
  let size := start.rest.length
  match program (Grammar.grammar (16 * (size + 4))) ⟨dialect, size, patches⟩ start 0 with
  | .found nodes _ _ => .ok nodes
  | .stuck reach => .error reach

end ModuleMock.Script
