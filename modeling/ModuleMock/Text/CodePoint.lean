/-!
# Texts of code points

An escape in a JSON text can name half of a surrogate pair, which no string holds. Texts that come from JSON are
therefore texts of code points, and those without halves are strings.

- `Str.points`, `Str.ofPoints`: the code points of a text, and the text of code points; each undoes the other;
- `EncodingFault.first?`: the first place in a text that has no bytes in the name of a file.
-/

namespace ModuleMock.Text

/-- A character, or half of a surrogate pair on its own: the code point `0xD800 + n`. -/
inductive CodePoint where
  | char (c : Char)
  | half (n : Fin 0x800)
deriving DecidableEq

namespace CodePoint

/-- The code point with a number that fits into four hexadecimal digits. -/
def ofUnit (n : Nat) : CodePoint :=
  if h : 0xD800 ≤ n ∧ n < 0xE000 then .half ⟨n - 0xD800, by omega⟩ else .char (Char.ofNat n)

def isHalf : CodePoint → Bool
  | .char _ => false
  | .half _ => true

def char? : CodePoint → Option Char
  | .char c => some c
  | .half _ => none

/-- Has a code point no bytes in the name of a file? The halves from U+DC80 to U+DCFF stand for the bytes from 0x80
on, and the others for nothing. -/
def isStray : CodePoint → Bool
  | .char _ => false
  | .half n => n.val < 0x480 || 0x500 ≤ n.val

/-- A half as an escape. -/
def escapeHalf (n : Fin 0x800) : List Char := '\\' :: 'u' :: Nat.toDigits 16 (0xD800 + n.val)

end CodePoint

/-! ## Texts -/

/-- A text with a half in it. -/
structure Halved where
  points : List CodePoint
  halved : points.any CodePoint.isHalf = true
deriving DecidableEq

/-- A text of code points: a string if it has no halves. -/
inductive Str where
  | whole (s : String)
  | halved (t : Halved)
deriving DecidableEq

namespace Str

instance : Coe String Str := ⟨whole⟩

def points : Str → List CodePoint
  | .whole s => s.toList.map .char
  | .halved t => t.points

def ofPoints (ps : List CodePoint) : Str :=
  if h : ps.any CodePoint.isHalf = true then .halved ⟨ps, h⟩
  else .whole (String.ofList (ps.filterMap CodePoint.char?))

def isWhole : Str → Bool
  | .whole _ => true
  | .halved _ => false

/-- The string that a text is, if it has no halves. -/
def whole? : Str → Option String
  | .whole s => some s
  | .halved _ => none

instance : Append Str where
  append
    | .whole s, .whole t => .whole (s ++ t)
    | s, t => .ofPoints (s.points ++ t.points)

/-- A text as it is printed, with escapes for halves. -/
def printed : Str → String
  | .whole s => s
  | .halved t => String.ofList (t.points.flatMap fun
    | .char c => [c]
    | .half n => CodePoint.escapeHalf n)

/-- Characters make a whole text. -/
theorem ofPoints_map_char (cs : List Char) : ofPoints (cs.map .char) = .whole (String.ofList cs) := by
  have hnone : (cs.map CodePoint.char).any CodePoint.isHalf = false := by
    induction cs with
    | nil => rfl
    | cons c cs ih => exact ih
  have hchars : (cs.map CodePoint.char).filterMap CodePoint.char? = cs := by
    induction cs with
    | nil => rfl
    | cons c cs ih => exact congrArg (c :: ·) (ih hnone)
  rw [ofPoints, dif_neg (by simp [hnone]), hchars]

end Str

/-! ## Bytes -/

/-- Halves from index `start` to before `stop` of which at least the first has no bytes. -/
structure EncodingFault where
  half : Fin 0x800
  start : Nat
  stop : Nat
deriving DecidableEq

def EncodingFault.message (f : EncodingFault) : String :=
  if f.stop = f.start + 1 then
    s!"'utf-8' codec can't encode character '{String.ofList (CodePoint.escapeHalf f.half)}' in position {f.start}: " ++
      "surrogates not allowed"
  else s!"'utf-8' codec can't encode characters in position {f.start}-{f.stop - 1}: surrogates not allowed"

/-- The first code point without bytes, and the halves that follow it at once; the text begins at the given index. -/
def EncodingFault.first? (index : Nat) : List CodePoint → Option EncodingFault
  | [] => none
  | p :: ps =>
    match p with
    | .char _ => first? (index + 1) ps
    | .half n =>
      if (CodePoint.half n).isStray then some ⟨n, index, index + 1 + (ps.takeWhile CodePoint.isHalf).length⟩
      else first? (index + 1) ps

end ModuleMock.Text
