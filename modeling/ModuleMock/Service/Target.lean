import ModuleMock.Path
import ModuleMock.Text.Utf8

/-!
# Targets of requests

A target is a path and a query. Both are percent-encoded; in a query a plus sign stands for a blank.

- `Target.ofString`: reading a target;
- `Target.parameter?`: the value of a query parameter, the last one if there are several.
-/

namespace ModuleMock.Service

structure Target where
  path : String
  parameters : List (String × String)

/-! ## Percent-encoding -/

/-- The value of a hexadecimal digit. -/
def nibble? (b : UInt8) : Option Nat :=
  let n := b.toNat
  if 0x30 ≤ n ∧ n ≤ 0x39 then some (n - 0x30)
  else if 0x41 ≤ n ∧ n ≤ 0x46 then some (n - 0x41 + 10)
  else if 0x61 ≤ n ∧ n ≤ 0x66 then some (n - 0x61 + 10)
  else none

/-- Bytes with percent-encoded ones decoded; a percent sign without two digits stands for itself. -/
def percentDecode : List UInt8 → List UInt8
  | 0x25 :: a :: b :: bs =>
    match nibble? a, nibble? b with
    | some x, some y => UInt8.ofNat (x * 16 + y) :: percentDecode bs
    | _, _ => 0x25 :: percentDecode (a :: b :: bs)
  | b :: bs => b :: percentDecode bs
  | [] => []

def percentDecoded (cs : List Char) : String := Text.decodeLossy (percentDecode (Text.encode (String.ofList cs)))

/-! ## Parts -/

/-- A list cut at each place where the separator stands. -/
def splitAll (separator : Char) : List Char → List (List Char)
  | [] => [[]]
  | c :: cs =>
    if c = separator then [] :: splitAll separator cs
    else
      match splitAll separator cs with
      | [] => [[c]]
      | p :: ps => (c :: p) :: ps

/-- A list before the first separator, and after it. -/
def splitFirst (separator : Char) (cs : List Char) : List Char × List Char :=
  let before := cs.takeWhile (· ≠ separator)
  (before, cs.drop (before.length + 1))

/-- Part of a query. -/
def queryDecoded (cs : List Char) : String := percentDecoded (cs.map fun c => if c = '+' then ' ' else c)

/-- The parameters of a query; a name without an equals sign has an empty value. -/
def parametersOf (query : List Char) : List (String × String) :=
  ((splitAll '&' query).filter (· ≠ [])).map fun pair =>
    let (name, value) := splitFirst '=' pair
    (queryDecoded name, queryDecoded value)

/-- Drops single dots, and double dots with the name before them. -/
def normalizeNames : List (List Char) → List (List Char) → List (List Char)
  | before, [] => before
  | before, name :: names =>
    if name = ['.'] then normalizeNames before names
    else if name = ['.', '.'] then normalizeNames before.dropLast names
    else normalizeNames (before ++ [name]) names

/-- A path with one slash at its start and without dots. -/
def normalizePath (cs : List Char) : List Char :=
  let names := normalizeNames [] (splitAll '/' (cs.dropWhile (· = '/')))
  '/' :: List.intercalate ['/'] names

def Target.ofString (s : String) : Target :=
  let (shown, _) := splitFirst '#' s.toList
  let (path, query) := splitFirst '?' shown
  ⟨percentDecoded (normalizePath path), parametersOf query⟩

/-- The last value of a parameter. -/
def Target.parameter? (t : Target) (name : String) : Option String :=
  (t.parameters.filter (·.1 = name)).getLast?.map (·.2)

end ModuleMock.Service
