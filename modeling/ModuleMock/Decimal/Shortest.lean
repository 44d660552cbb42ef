/-!
# The fewest digits that read back

A finite binary number is `m * 2 ^ q`; the decimals that read back as it fill an interval around it, whose ends belong
to it exactly if `m` is even. `shortest` tries one significant digit, then two, and so on, and takes the first decimal
that lies in the interval, the nearer one of two.

`Style.render` writes digits and exponent in the way a `Style` says.
-/

namespace ModuleMock.Decimal

/-- A positive binary number `mantissa * 2 ^ exponent`; `atPower` holds where the numbers below it lie closer. -/
structure Binary where
  mantissa : Nat
  exponent : Int
  atPower : Bool

/-- A positive decimal `0.d₁d₂… * 10 ^ point`, without zeros at its end. -/
structure Digits where
  digits : List Char
  point : Int

/-- A ratio of natural numbers. -/
structure Ratio where
  num : Nat
  den : Nat

namespace Ratio

def le (a b : Ratio) : Bool := a.num * b.den ≤ b.num * a.den

def lt (a b : Ratio) : Bool := a.num * b.den < b.num * a.den

/-- The ratio times a power of two. -/
def scale2 (a : Ratio) (e : Int) : Ratio :=
  if 0 ≤ e then ⟨a.num * Nat.pow 2 e.toNat, a.den⟩ else ⟨a.num, a.den * Nat.pow 2 (-e).toNat⟩

/-- The ratio times a power of ten. -/
def scale10 (a : Ratio) (e : Int) : Ratio :=
  if 0 ≤ e then ⟨a.num * Nat.pow 10 e.toNat, a.den⟩ else ⟨a.num, a.den * Nat.pow 10 (-e).toNat⟩

/-- The distance between two ratios. -/
def dist (a b : Ratio) : Ratio :=
  let x := a.num * b.den
  let y := b.num * a.den
  ⟨if x ≤ y then y - x else x - y, a.den * b.den⟩

end Ratio

namespace Binary

def value (b : Binary) : Ratio := Ratio.scale2 ⟨b.mantissa, 1⟩ b.exponent

/-- The ends of the interval of decimals that read back. -/
def interval (b : Binary) : Ratio × Ratio :=
  let low : Ratio := if b.atPower then ⟨4 * b.mantissa - 1, 4⟩ else ⟨2 * b.mantissa - 1, 2⟩
  (low.scale2 b.exponent, Ratio.scale2 ⟨2 * b.mantissa + 1, 2⟩ b.exponent)

/-- Does a ratio read back as the number? -/
def readsBack (b : Binary) (r : Ratio) : Bool :=
  let (low, high) := b.interval
  if b.mantissa % 2 == 0 then low.le r && r.le high else low.lt r && r.lt high

/-- The exponent of the leading decimal digit. -/
def leading (r : Ratio) : Int :=
  let guess : Int := (Nat.toDigits 10 r.num).length - (Nat.toDigits 10 r.den).length
  if (Ratio.scale10 ⟨1, 1⟩ guess).le r then guess else guess - 1

/-- The nearest decimal with `k` significant digits that reads back, as a whole number and a power of ten. -/
def withDigits? (b : Binary) (k : Nat) : Option (Nat × Int) :=
  let v := b.value
  let unit := leading v - (k : Int) + 1
  let scaled := v.scale10 (-unit)
  let below := scaled.num / scaled.den
  let at' (n : Nat) : Ratio := Ratio.scale10 ⟨n, 1⟩ unit
  match b.readsBack (at' below) && below != 0, b.readsBack (at' (below + 1)) with
  | true, true =>
    let down := v.dist (at' below)
    let up := v.dist (at' (below + 1))
    some (if up.lt down || (!down.lt up && below % 2 == 1) then below + 1 else below, unit)
  | true, false => some (below, unit)
  | false, true => some (below + 1, unit)
  | false, false => none

end Binary

/-- A whole number times a power of ten, in digits. -/
def Digits.ofScaled (n : Nat) (unit : Int) : Digits :=
  let ds := Nat.toDigits 10 n
  ⟨(ds.reverse.dropWhile (· == '0')).reverse, ds.length + unit⟩

/-- The fewest digits that read back. -/
def shortest (b : Binary) : Digits :=
  match (List.range 17).findSome? fun k => b.withDigits? (k + 1) with
  | some (n, unit) => .ofScaled n unit
  | none => ⟨['0'], 1⟩

/-! ## Notation -/

/-- How decimals are written. -/
structure Style where
  /-- Positional notation is used while the exponent of the leading digit lies between these two. -/
  lowest : Int
  highest : Int
  /-- Least number of digits of an exponent. -/
  exponentWidth : Nat

def Style.render (s : Style) (d : Digits) : String :=
  let lead := d.point - 1
  let n : Int := d.digits.length
  if s.lowest ≤ lead && lead ≤ s.highest then
    let body :=
      if d.point ≤ 0 then "0.".toList ++ List.replicate (-d.point).toNat '0' ++ d.digits
      else if n ≤ d.point then d.digits ++ List.replicate (d.point - n).toNat '0' ++ ".0".toList
      else d.digits.take d.point.toNat ++ ['.'] ++ d.digits.drop d.point.toNat
    String.ofList body
  else
    let tail := d.digits.drop 1
    let mantissa := d.digits.take 1 ++ (if tail.isEmpty then [] else '.' :: tail)
    let e := Nat.toDigits 10 lead.natAbs
    let padded := List.replicate (s.exponentWidth - e.length) '0' ++ e
    String.ofList (mantissa ++ ['e', if lead < 0 then '-' else '+'] ++ padded)

/-! ## Floating-point numbers -/

/-- A finite positive number of double precision, from its bits without the sign. -/
def Binary.ofBits (bits : Nat) : Binary :=
  let fraction : Nat := bits % Nat.pow 2 52
  let exponent : Nat := bits / Nat.pow 2 52 % Nat.pow 2 11
  if exponent == 0 then ⟨fraction, -1074, false⟩
  else ⟨Nat.pow 2 52 + fraction, (exponent : Int) - 1075, fraction == 0 && 1 < exponent⟩

/-- The text of a double: the shortest decimal, with a sign also for zero, or the name of a value that is no number. -/
def renderFloat (s : Style) (x : Float) : String :=
  let bits := x.toBits.toNat
  let magnitude := bits % Nat.pow 2 63
  let sign := if bits / Nat.pow 2 63 == 1 then "-" else ""
  if magnitude == 0 then sign ++ "0.0"
  else if magnitude < 2047 * Nat.pow 2 52 then sign ++ s.render (shortest (.ofBits magnitude))
  else if magnitude == 2047 * Nat.pow 2 52 then sign ++ "inf"
  else "nan"

end ModuleMock.Decimal
