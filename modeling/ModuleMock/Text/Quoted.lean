import ModuleMock.Text.CodePoint
import ModuleMock.Text.Printable

/-!
# Texts in quotation marks for messages

A text is shown between single quotes, or between double quotes if it holds single quotes only. Backslashes, the
quotation mark, line breaks, tabs, characters that cannot be printed and halves of surrogate pairs are escaped.
-/

namespace ModuleMock.Text

/-- A number in lower-case hexadecimal with at least the given number of digits. -/
def hexPadded (width n : Nat) : List Char :=
  let ds := Nat.toDigits 16 n
  List.replicate (width - ds.length) '0' ++ ds

def shownChar (quote c : Char) : List Char :=
  if c = quote ∨ c = '\\' then ['\\', c]
  else if c = '\n' then ['\\', 'n']
  else if c = '\r' then ['\\', 'r']
  else if c = '\t' then ['\\', 't']
  else if isPrintable c then [c]
  else
    let n := c.toNat
    if n < 0x100 then '\\' :: 'x' :: hexPadded 2 n
    else if n < 0x10000 then '\\' :: 'u' :: hexPadded 4 n
    else '\\' :: 'U' :: hexPadded 8 n

/-- A text in quotation marks. -/
def shown (s : String) : String :=
  let quote := if s.toList.contains '\'' && !s.toList.contains '"' then '"' else '\''
  String.ofList (quote :: s.toList.flatMap (shownChar quote) ++ [quote])

def shownPoint (quote : Char) : CodePoint → List Char
  | .char c => shownChar quote c
  | .half n => CodePoint.escapeHalf n

/-- A text of code points in quotation marks. -/
def Str.shown : Str → String
  | .whole s => Text.shown s
  | .halved t =>
    let quote := if t.points.contains (.char '\'') && !t.points.contains (.char '"') then '"' else '\''
    String.ofList (quote :: t.points.flatMap (shownPoint quote) ++ [quote])

end ModuleMock.Text
