/-!
# Reading UTF-8

`decode` reads bytes as text or tells the first fault: a byte that starts no character, a character whose bytes do not
go on as they should, or one that is cut off by the end. `decodeLossy` reads on after faults.
-/

namespace ModuleMock.Text

inductive Utf8Cause where
  | startByte
  | continuation
  | unexpectedEnd
deriving DecidableEq

/-- A fault in the bytes from `start` to `stop`, the first of which is `byte`. -/
structure Utf8Fault where
  cause : Utf8Cause
  start : Nat
  stop : Nat
  byte : UInt8
deriving DecidableEq

def Utf8Cause.message : Utf8Cause → String
  | .startByte => "invalid start byte"
  | .continuation => "invalid continuation byte"
  | .unexpectedEnd => "unexpected end of data"

def hexByte (b : UInt8) : String :=
  let ds := Nat.toDigits 16 b.toNat
  String.ofList (List.replicate (2 - ds.length) '0' ++ ds)

def Utf8Fault.message (f : Utf8Fault) : String :=
  if f.stop = f.start + 1 then
    s!"'utf-8' codec can't decode byte 0x{hexByte f.byte} in position {f.start}: {f.cause.message}"
  else s!"'utf-8' codec can't decode bytes in position {f.start}-{f.stop - 1}: {f.cause.message}"

/-- How a character goes on after its first byte: the payload of that byte, the bounds of the second byte, and the
number of further bytes. -/
structure Lead where
  payload : Nat
  low : Nat
  high : Nat
  more : Nat

/-- The lead of a character of several bytes. -/
def Lead.ofByte? (b : UInt8) : Option Lead :=
  let n := b.toNat
  if 0xC2 ≤ n ∧ n ≤ 0xDF then some ⟨n - 0xC0, 0x80, 0xBF, 1⟩
  else if n = 0xE0 then some ⟨0, 0xA0, 0xBF, 2⟩
  else if n = 0xED then some ⟨0xD, 0x80, 0x9F, 2⟩
  else if 0xE1 ≤ n ∧ n ≤ 0xEF then some ⟨n - 0xE0, 0x80, 0xBF, 2⟩
  else if n = 0xF0 then some ⟨0, 0x90, 0xBF, 3⟩
  else if n = 0xF4 then some ⟨4, 0x80, 0x8F, 3⟩
  else if 0xF1 ≤ n ∧ n ≤ 0xF3 then some ⟨n - 0xF0, 0x80, 0xBF, 3⟩
  else none

/-- Reads further bytes of a character: its code point and their number, or how many bytes fit and why no more do. -/
def furtherBytes (low high : Nat) : Nat → Nat → List UInt8 → Except (Utf8Cause × Nat) Nat
  | 0, n, _ => .ok n
  | _ + 1, _, [] => .error (.unexpectedEnd, 0)
  | k + 1, n, b :: bs =>
    if low ≤ b.toNat ∧ b.toNat ≤ high then
      match furtherBytes 0x80 0xBF k (n * 64 + (b.toNat - 0x80)) bs with
      | .ok m => .ok m
      | .error (cause, fit) => .error (cause, fit + 1)
    else .error (.continuation, 0)

/-- The characters of the bytes from the given position on. -/
def decodeFrom : Nat → Nat → List UInt8 → Except Utf8Fault (List Char)
  | 0, _, _ => .ok []
  | _ + 1, _, [] => .ok []
  | fuel + 1, position, b :: bs =>
    if b.toNat < 0x80 then do return Char.ofNat b.toNat :: (← decodeFrom fuel (position + 1) bs)
    else
      match Lead.ofByte? b with
      | none => .error ⟨.startByte, position, position + 1, b⟩
      | some lead =>
        match furtherBytes lead.low lead.high lead.more lead.payload bs with
        | .ok n => do return Char.ofNat n :: (← decodeFrom fuel (position + 1 + lead.more) (bs.drop lead.more))
        | .error (cause, fit) => .error ⟨cause, position, position + 1 + fit, b⟩

/-- The text of a list of bytes. -/
def decode (bytes : List UInt8) : Except Utf8Fault String :=
  (decodeFrom bytes.length 0 bytes).map String.ofList

/-- The character that stands for bytes that are none. -/
def replacement : Char := '\uFFFD'

/-- The characters of bytes, with a replacement for each run of bytes that is at fault. -/
def decodeLossyFrom : Nat → List UInt8 → List Char
  | 0, _ => []
  | fuel + 1, bytes =>
    match decodeFrom bytes.length 0 bytes with
    | .ok cs => cs
    | .error f =>
      match decodeFrom f.start 0 (bytes.take f.start) with
      | .ok cs => cs ++ replacement :: decodeLossyFrom fuel (bytes.drop f.stop)
      | .error _ => []

/-- The text of any list of bytes. -/
def decodeLossy (bytes : List UInt8) : String := String.ofList (decodeLossyFrom (bytes.length + 1) bytes)

/-- The bytes of a text. -/
def encode (s : String) : List UInt8 := s.toUTF8.data.toList

/-! ## Lines -/

/-- Line ends of all kinds as line feeds. -/
def unifyLines : List Char → List Char
  | [] => []
  | '\r' :: '\n' :: cs => '\n' :: unifyLines cs
  | '\r' :: cs => '\n' :: unifyLines cs
  | c :: cs => c :: unifyLines cs

/-- The text of a file: its bytes as characters, with line feeds for all line ends. -/
def decodeLines (bytes : List UInt8) : Except Utf8Fault String :=
  (decode bytes).map fun s => String.ofList (unifyLines s.toList)

end ModuleMock.Text
