import ModuleMock.Syntax.Node

/-!
# Positions in a script

A cursor is the unread rest of a script with the number of characters and of line feeds before it.
-/

namespace ModuleMock.Script

open ModuleMock.Syntax

structure Cursor where
  rest : List Char
  index : Nat
  row : Nat

namespace Cursor

/-- The cursor at the start of a text. -/
def start (text : String) : Cursor := ⟨text.toList, 0, 0⟩

/-- The cursor `n` characters further on, or at the end. -/
def advance : Nat → Cursor → Cursor
  | 0, c => c
  | n + 1, c =>
    match c.rest with
    | [] => c
    | x :: xs => advance n ⟨xs, c.index + 1, if x == '\n' then c.row + 1 else c.row⟩

/-- The stretch from one cursor to a later one. -/
def extentTo (a b : Cursor) : Extent :=
  ⟨a.index, b.index, a.row, String.ofList (a.rest.take (b.index - a.index))⟩

/-- The node of a kind from one cursor to a later one. -/
def nodeTo (a b : Cursor) (k : Kind) (children : List Node) : Node :=
  .mk k none (a.extentTo b) false children

end Cursor

end ModuleMock.Script
