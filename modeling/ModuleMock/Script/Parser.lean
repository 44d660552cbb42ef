import ModuleMock.Script.Lexeme
import ModuleMock.Script.Cursor

/-!
# Parsers with ordered choice

A parser reads from a cursor and answers with a value and a later cursor, or is stuck. Either way it reports the
furthest index at which some token was refused: that is where a text that cannot be read goes wrong.

Parsers of grammatical phrases give a `Fragment`: sibling nodes in source order, comments included. Blanks and
comments before a phrase belong to its parent, so `phrase` steps over them before it opens a node.

A `Patch` mends a text without changing it: skipped text counts as a comment-like extra, and a missing token is taken
as read at the index where it is missing.
-/

namespace ModuleMock.Script

open ModuleMock.Syntax

/-- Which of the two languages a script is written in: with or without embedded markup. -/
inductive Dialect where
  | plain
  | markup
deriving DecidableEq

inductive Patch where
  /-- The characters from `start` to `stop` are skipped. -/
  | skipped (start stop : Nat)
  /-- A token is taken as read before the one at `index`; its place is the end of the token before. -/
  | missing (index : Nat) (kind : Kind) (place : Extent)
deriving DecidableEq

structure Setting where
  dialect : Dialect
  /-- Number of characters of the script, a bound for every repetition. -/
  size : Nat
  patches : List Patch

inductive Reply (α : Type) where
  | found (value : α) (cursor : Cursor) (reach : Nat)
  | stuck (reach : Nat)

def Parser (α : Type) : Type := Setting → Cursor → Nat → Reply α

abbrev Fragment := List Node

namespace Parser

def pure {α : Type} (a : α) : Parser α := fun _ c r => .found a c r

def bind {α β : Type} (p : Parser α) (f : α → Parser β) : Parser β := fun s c r =>
  match p s c r with
  | .found a c' r' => f a s c' r'
  | .stuck r' => .stuck r'

instance : Monad Parser where
  pure := Parser.pure
  bind := Parser.bind

/-- Stuck here, without a say on how far reading got. -/
def fail {α : Type} : Parser α := fun _ _ r => .stuck r

/-- Stuck at the given index. -/
def refuse {α : Type} (index : Nat) : Parser α := fun _ _ r => .stuck (max r index)

/-- The second parser from the same place if the first is stuck. -/
def orElse {α : Type} (p : Parser α) (q : Unit → Parser α) : Parser α := fun s c r =>
  match p s c r with
  | .found a c' r' => .found a c' r'
  | .stuck r' => q () s c r'

instance {α : Type} : OrElse (Parser α) where
  orElse := orElse

/-- The first parser of a list that is not stuck. -/
def firstOf {α : Type} (ps : List (Parser α)) : Parser α := ps.foldr (fun p q => p.orElse fun _ => q) fail

def here : Parser Cursor := fun _ c r => .found c c r

def setting : Parser Setting := fun s c r => .found s c r

def moveTo (c : Cursor) : Parser Unit := fun _ _ r => .found () c r

/-- Would the parser succeed here? Nothing is read and nothing is reported. -/
def ahead {α : Type} (p : Parser α) : Parser Bool := fun s c r =>
  match p s c r with
  | .found _ _ _ => .found true c r
  | .stuck _ => .found false c r

/-- The parser's value, or a default without reading. -/
def orDefault {α : Type} (a : α) (p : Parser α) : Parser α := p.orElse fun _ => pure a

/-- Nothing, or what the parser reads. -/
def optional (p : Parser Fragment) : Parser Fragment := p.orDefault []

/-- One fragment after another. -/
def sequence (ps : List (Parser Fragment)) : Parser Fragment :=
  ps.foldr (fun p q => do return (← p) ++ (← q)) (pure [])

/-- As often as possible, at most `fuel` times, while the index grows. -/
def repeatUpTo (p : Parser Fragment) : Nat → Fragment → Parser Fragment
  | 0, read => pure read
  | fuel + 1, read => fun s c r =>
    match p s c r with
    | .stuck r' => .found read c r'
    | .found more c' r' =>
      if c'.index ≤ c.index then .found read c r' else repeatUpTo p fuel (read ++ more) s c' r'

/-- As often as possible. -/
def many (p : Parser Fragment) : Parser Fragment := fun s c r => repeatUpTo p (s.size + 1) [] s c r

def guard (b : Bool) : Parser Unit := if b then pure () else fail

end Parser

end ModuleMock.Script
