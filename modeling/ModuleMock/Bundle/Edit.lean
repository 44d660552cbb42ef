import ModuleMock.Syntax.Node

/-!
# Edits of a text

An edit replaces the characters from `start` to `stop`. Edits are applied from the back of a text to its front, so
that those still to be applied keep their places.
-/

namespace ModuleMock.Bundle

structure Edit where
  start : Nat
  stop : Nat
  replacement : List Char

def Edit.apply (source : List Char) (e : Edit) : List Char :=
  source.take e.start ++ e.replacement ++ source.drop e.stop

/-- Applies edits, the one furthest back first. -/
def applyEdits (source : List Char) (edits : List Edit) : List Char :=
  (edits.mergeSort fun a b => b.start ≤ a.start).foldl Edit.apply source

def isInlineBlank (c : Char) : Bool := c = ' ' ∨ c = '\t'

/-- The edit that removes the characters from `start` to `stop`. If nothing else but spaces and tabs stands on their
line, the whole line goes, with its line end. -/
def removal (source : List Char) (start stop : Nat) : Edit :=
  let before := (source.take start).reverse
  let left := (before.takeWhile isInlineBlank).length
  let after := source.drop stop
  let right := (after.takeWhile isInlineBlank).length
  let startsLine : Bool :=
    match before.drop left with
    | [] => true
    | c :: _ => c = '\n'
  if startsLine then
    match after.drop right with
    | '\r' :: '\n' :: _ => ⟨start - left, stop + right + 2, []⟩
    | '\n' :: _ => ⟨start - left, stop + right + 1, []⟩
    | [] => ⟨start - left, stop + right, []⟩
    | _ => ⟨start, stop, []⟩
  else ⟨start, stop, []⟩

end ModuleMock.Bundle
