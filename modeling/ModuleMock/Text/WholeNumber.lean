import ModuleMock.Text.Blank
import ModuleMock.Text.DecimalDigit

/-!
# Whole numbers in text

A whole number is a sign, if any, and digits of any script, with blanks around it. Single underscores may stand
between digits.
-/

namespace ModuleMock.Text

/-- The digits of a number: at least one, with single underscores between them only. -/
def digitRun? : List Char → Option (List Nat)
  | [] => none
  | [c] => (digitValue? c).map ([·])
  | c :: '_' :: cs => do return (← digitValue? c) :: (← digitRun? cs)
  | c :: cs => do return (← digitValue? c) :: (← digitRun? cs)

/-- Numbers with more digits are refused. -/
def maxDigits : Nat := 4300

def natural? (cs : List Char) : Option Nat := do
  let ds ← digitRun? cs
  if ds.length ≤ maxDigits then some (ds.foldl (fun n d => n * 10 + d) 0) else none

def wholeNumber? (s : String) : Option Int :=
  match trimList s.toList with
  | '-' :: cs => (natural? cs).map fun n => -(n : Int)
  | '+' :: cs => (natural? cs).map fun n => (n : Int)
  | cs => (natural? cs).map fun n => (n : Int)

end ModuleMock.Text
