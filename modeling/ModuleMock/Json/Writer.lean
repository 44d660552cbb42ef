import ModuleMock.Json.Value
import ModuleMock.Decimal.Shortest

/-!
# Writing JSON

`compact` writes a value on one line without blanks, `indented` with one member or item a line. Characters outside
ASCII stand for themselves unless `ascii` asks for escapes; halves of surrogate pairs are always escaped.
-/

namespace ModuleMock.Json

open Text (CodePoint Str)

/-- Exponents from -5 down and from 16 up are written out, with two digits at least. -/
def floatStyle : Decimal.Style := ⟨-4, 15, 2⟩

def hexDigits (width n : Nat) : List Char :=
  let ds := Nat.toDigits 16 n
  List.replicate (width - ds.length) '0' ++ ds

/-- A code unit as an escape. -/
def unitEscape (n : Nat) : List Char := '\\' :: 'u' :: hexDigits 4 n

def escapeChar (ascii : Bool) (c : Char) : List Char :=
  match c with
  | '"' => ['\\', '"']
  | '\\' => ['\\', '\\']
  | '\n' => ['\\', 'n']
  | '\r' => ['\\', 'r']
  | '\t' => ['\\', 't']
  | '\x08' => ['\\', 'b']
  | '\x0c' => ['\\', 'f']
  | c =>
    let n := c.toNat
    if n < 0x20 then unitEscape n
    else if !ascii || n < 0x7F then [c]
    else if n < 0x10000 then unitEscape n
    else unitEscape (0xD800 + (n - 0x10000) / 0x400) ++ unitEscape (0xDC00 + (n - 0x10000) % 0x400)

def escapePoint (ascii : Bool) : CodePoint → List Char
  | .char c => escapeChar ascii c
  | .half n => CodePoint.escapeHalf n

def quoted (ascii : Bool) : Str → String
  | .whole s => String.ofList ('"' :: s.toList.flatMap (escapeChar ascii) ++ ['"'])
  | .halved t => String.ofList ('"' :: t.points.flatMap (escapePoint ascii) ++ ['"'])

/-- Words for numbers that are not finite, as opposed to their decimal text. -/
def floatText (x : Float) : String :=
  match Decimal.renderFloat floatStyle x with
  | "inf" => "Infinity"
  | "-inf" => "-Infinity"
  | "nan" => "NaN"
  | text => text

mutual

def compact (ascii : Bool) : Value → String
  | .null => "null"
  | .bool true => "true"
  | .bool false => "false"
  | .integer i => toString i
  | .float x => floatText x
  | .string s => quoted ascii s
  | .array items => "[" ++ ",".intercalate (compactItems ascii items) ++ "]"
  | .object members => "\x7b" ++ ",".intercalate (compactMembers ascii members) ++ "\x7d"

def compactItems (ascii : Bool) : List Value → List String
  | [] => []
  | v :: vs => compact ascii v :: compactItems ascii vs

def compactMembers (ascii : Bool) : List (Str × Value) → List String
  | [] => []
  | (k, v) :: ms => (quoted ascii k ++ ":" ++ compact ascii v) :: compactMembers ascii ms

end

/-- Lines between brackets, one level deeper than the brackets. -/
def bracketed (left right : String) (indent : String) (lines : List String) : String :=
  if lines.isEmpty then left ++ right
  else left ++ "\n" ++ ",\n".intercalate lines ++ "\n" ++ indent ++ right

mutual

/-- A value over several lines, two blanks a level, after the given indentation. -/
def indented (indent : String) : Value → String
  | .array items => bracketed "[" "]" indent (indentedItems (indent ++ "  ") items)
  | .object members => bracketed "\x7b" "\x7d" indent (indentedMembers (indent ++ "  ") members)
  | v => compact false v

def indentedItems (indent : String) : List Value → List String
  | [] => []
  | v :: vs => (indent ++ indented indent v) :: indentedItems indent vs

def indentedMembers (indent : String) : List (Str × Value) → List String
  | [] => []
  | (k, v) :: ms => (indent ++ quoted false k ++ ": " ++ indented indent v) :: indentedMembers indent ms

end

end ModuleMock.Json
