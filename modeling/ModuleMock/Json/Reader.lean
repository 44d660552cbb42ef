import ModuleMock.Json.Value
import ModuleMock.OrderedMap

/-!
# Reading JSON

`read` reads a whole text. What is wrong with a text is told by a cause and the index of a character; the words
`NaN`, `Infinity` and `-Infinity` are numbers. The escapes for a surrogate pair stand for one character, and a half
without the other for itself. Of several members with one name the last value counts, at the place of
the first.
-/

namespace ModuleMock.Json

open Text (CodePoint Str)

/-- Why a text is not JSON. -/
inductive Cause where
  | byteOrderMark
  | value
  | propertyName
  | colon
  | comma
  | unterminated
  | controlCharacter
  | escape
  | unicodeEscape
  | extraData
deriving DecidableEq

def Cause.message : Cause → String
  | .byteOrderMark => "Unexpected UTF-8 BOM (decode using utf-8-sig)"
  | .value => "Expecting value"
  | .propertyName => "Expecting property name enclosed in double quotes"
  | .colon => "Expecting ':' delimiter"
  | .comma => "Expecting ',' delimiter"
  | .unterminated => "Unterminated string starting at"
  | .controlCharacter => "Invalid control character at"
  | .escape => "Invalid \\escape"
  | .unicodeEscape => "Invalid \\uXXXX escape"
  | .extraData => "Extra data"

/-- A cause and the index of the character it concerns. -/
structure Fault where
  cause : Cause
  index : Nat
deriving DecidableEq

/-- The text of a fault in a text: cause, line, column and index. -/
def Fault.message (text : String) (f : Fault) : String :=
  let before := text.toList.take f.index
  let line := before.count '\n' + 1
  let column := (before.reverse.takeWhile (· != '\n')).length + 1
  s!"{f.cause.message}: line {line} column {column} (char {f.index})"

/-- The unread rest of a text and the number of characters before it. -/
structure Spot where
  rest : List Char
  index : Nat

namespace Spot

def skip (n : Nat) (s : Spot) : Spot := ⟨s.rest.drop n, s.index + n⟩

def fault (s : Spot) (c : Cause) : Fault := ⟨c, s.index⟩

def isBlank (c : Char) : Bool := c == ' ' || c == '\t' || c == '\n' || c == '\r'

def skipBlanks (s : Spot) : Spot := s.skip (s.rest.takeWhile isBlank).length

end Spot

/-! ## Strings -/

def hexDigit? (c : Char) : Option Nat :=
  if '0' ≤ c && c ≤ '9' then some (c.toNat - '0'.toNat)
  else if 'a' ≤ c && c ≤ 'f' then some (c.toNat - 'a'.toNat + 10)
  else if 'A' ≤ c && c ≤ 'F' then some (c.toNat - 'A'.toNat + 10)
  else none

/-- Four hexadecimal digits. -/
def hexUnit? : List Char → Option Nat
  | a :: b :: c :: d :: _ => do
    return ((← hexDigit? a) * 16 + (← hexDigit? b)) * 256 + (← hexDigit? c) * 16 + (← hexDigit? d)
  | _ => none

/-- The character of a single-letter escape. -/
def simpleEscape? : Char → Option Char
  | '"' => some '"'
  | '\\' => some '\\'
  | '/' => some '/'
  | 'b' => some '\x08'
  | 'f' => some '\x0c'
  | 'n' => some '\n'
  | 'r' => some '\r'
  | 't' => some '\t'
  | _ => none

/-- The second half of a surrogate pair, where a first half may be followed by one. -/
def secondHalf? : List Char → Option (Option Nat)
  | '\\' :: 'u' :: cs => some (hexUnit? cs)
  | _ => none

/-- The rest of a string after its opening quotation mark, which stands at index `start`. -/
def readString (start : Nat) : Nat → List CodePoint → Spot → Except Fault (Str × Spot)
  | 0, _, _ => .error ⟨.unterminated, start⟩
  | fuel + 1, read, s =>
    match s.rest with
    | [] => .error ⟨.unterminated, start⟩
    | '"' :: _ => .ok (.ofPoints read.reverse, s.skip 1)
    | '\\' :: [] => .error ⟨.unterminated, start⟩
    | '\\' :: 'u' :: cs =>
      if cs.length ≤ 4 then .error ⟨.unicodeEscape, s.index + 1⟩
      else
        match hexUnit? cs with
        | none => .error ⟨.unicodeEscape, s.index + 1⟩
        | some n =>
          if 0xD800 ≤ n && n < 0xDC00 && 10 < cs.length then
            match secondHalf? (cs.drop 4) with
            | some none => .error ⟨.unicodeEscape, s.index + 7⟩
            | some (some m) =>
              if 0xDC00 ≤ m && m < 0xE000 then
                let pair := Char.ofNat (0x10000 + (n - 0xD800) * 0x400 + (m - 0xDC00))
                readString start fuel (.char pair :: read) (s.skip 12)
              else readString start fuel (.ofUnit n :: read) (s.skip 6)
            | none => readString start fuel (.ofUnit n :: read) (s.skip 6)
          else readString start fuel (.ofUnit n :: read) (s.skip 6)
    | '\\' :: c :: _ =>
      match simpleEscape? c with
      | some x => readString start fuel (.char x :: read) (s.skip 2)
      | none => .error (s.fault .escape)
    | c :: _ =>
      if c.toNat < 0x20 then .error (s.fault .controlCharacter)
      else readString start fuel (.char c :: read) (s.skip 1)

/-! ## Numbers -/

/-- The decimal `digits * 10 ^ exponent` in double precision. -/
def scientific (digits : Nat) (exponent : Int) : Float :=
  let size : Int := (Nat.toDigits 10 digits).length
  if digits == 0 then 0
  else if 400 < size + exponent then 1 / 0
  else if size + exponent < -400 then 0
  else Float.ofScientific digits (exponent < 0) exponent.natAbs

def digitsValue (ds : List Char) : Nat := ds.foldl (fun n d => n * 10 + (d.toNat - '0'.toNat)) 0

/-- Whole part, fraction digits and exponent of a number, with the number of characters read. -/
def numberParts? (cs : List Char) : Option (List Char × List Char × Option Int × Nat) :=
  let isDigit (c : Char) : Bool := '0' ≤ c && c ≤ '9'
  let whole := match cs with
    | '0' :: _ => ['0']
    | _ => cs.takeWhile isDigit
  if whole.isEmpty then none
  else
    let afterWhole := cs.drop whole.length
    let fraction := match afterWhole with
      | '.' :: ds => ds.takeWhile isDigit
      | _ => []
    let read := whole.length + (if fraction.isEmpty then 0 else fraction.length + 1)
    match cs.drop read with
    | e :: rest =>
      if e == 'e' || e == 'E' then
        let (negative, signed, ds) := match rest with
          | '+' :: ds => (false, 1, ds.takeWhile isDigit)
          | '-' :: ds => (true, 1, ds.takeWhile isDigit)
          | ds => (false, 0, ds.takeWhile isDigit)
        if ds.isEmpty then some (whole, fraction, none, read)
        else
          let n : Int := digitsValue ds
          some (whole, fraction, some (if negative then -n else n), read + 1 + signed + ds.length)
      else some (whole, fraction, none, read)
    | [] => some (whole, fraction, none, read)

/-- A number at the start of a list, with its length. -/
def number? (cs : List Char) : Option (Value × Nat) := do
  let (negative, body) := match cs with
    | '-' :: ds => (true, ds)
    | ds => (false, ds)
  let (whole, fraction, exponent, n) ← numberParts? body
  let length := if negative then n + 1 else n
  if fraction.isEmpty && exponent.isNone then
    let i : Int := digitsValue whole
    return (.integer (if negative then -i else i), length)
  else
    let x := scientific (digitsValue (whole ++ fraction)) (exponent.getD 0 - (fraction.length : Int))
    return (.float (if negative then -x else x), length)

/-- The words that stand for values. -/
def words : List (String × Value) :=
  [("null", .null), ("true", .bool true), ("false", .bool false), ("NaN", .float (0 / 0)),
    ("Infinity", .float (1 / 0)), ("-Infinity", .float (-(1 / 0)))]

def word? (cs : List Char) : Option (Value × Nat) :=
  words.findSome? fun (w, v) => if cs.take w.length == w.toList then some (v, w.length) else none

/-! ## Values -/

mutual

def readValue : Nat → Spot → Except Fault (Value × Spot)
  | 0, s => .error (s.fault .value)
  | fuel + 1, s =>
    match s.rest with
    | '"' :: _ => do
      let (text, next) ← readString s.index (s.rest.length + 1) [] (s.skip 1)
      return (.string text, next)
    | '{' :: _ =>
      let inner := (s.skip 1).skipBlanks
      match inner.rest with
      | '}' :: _ => .ok (.object [], inner.skip 1)
      | _ => readMembers fuel [] inner
    | '[' :: _ =>
      let inner := (s.skip 1).skipBlanks
      match inner.rest with
      | ']' :: _ => .ok (.array [], inner.skip 1)
      | _ => readItems fuel [] inner
    | cs =>
      match (word? cs).orElse fun _ => number? cs with
      | some (v, n) => .ok (v, s.skip n)
      | none => .error (s.fault .value)

/-- Members of an object from the next name on. -/
def readMembers : Nat → List (Str × Value) → Spot → Except Fault (Value × Spot)
  | 0, _, s => .error (s.fault .value)
  | fuel + 1, read, s =>
    match s.rest with
    | '"' :: _ => do
      let (name, afterName) ← readString s.index (s.rest.length + 1) [] (s.skip 1)
      let atColon := afterName.skipBlanks
      if atColon.rest.head? != some ':' then throw (atColon.fault .colon)
      let (value, afterValue) ← readValue fuel (atColon.skip 1).skipBlanks
      let all := read ++ [(name, value)]
      let s' := afterValue.skipBlanks
      match s'.rest with
      | '}' :: _ => return (.object (OrderedMap.ofList all), s'.skip 1)
      | ',' :: _ => readMembers fuel all (s'.skip 1).skipBlanks
      | _ => throw (s'.fault .comma)
    | _ => .error (s.fault .propertyName)

/-- Items of an array from the next one on. -/
def readItems : Nat → List Value → Spot → Except Fault (Value × Spot)
  | 0, _, s => .error (s.fault .value)
  | fuel + 1, read, s => do
    let (value, afterValue) ← readValue fuel s
    let s' := afterValue.skipBlanks
    match s'.rest with
    | ']' :: _ => return (.array (read ++ [value]), s'.skip 1)
    | ',' :: _ => readItems fuel (read ++ [value]) (s'.skip 1).skipBlanks
    | _ => throw (s'.fault .comma)

end

/-- The value of a whole text. -/
def read (text : String) : Except Fault Value :=
  let cs := text.toList
  if cs.head?.map Char.toNat == some 0xFEFF then .error ⟨.byteOrderMark, 0⟩
  else do
    let (value, s) ← readValue (cs.length + 2) (Spot.skipBlanks ⟨cs, 0⟩)
    let stop := s.skipBlanks
    if stop.rest.isEmpty then return value else throw (stop.fault .extraData)

end ModuleMock.Json
