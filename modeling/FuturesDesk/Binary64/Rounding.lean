import FuturesDesk.Power

/-! Doubles as exact dyadic numbers: taking one apart into a significand and a power of two, and the
double nearest to a ratio of natural numbers, a half going to the even significand. -/
namespace FuturesDesk.Binary64

/-- The stored fraction and exponent fields of a double. -/
def fields (x : Float) : Bool × Nat × Nat :=
  let bits := x.toBits.toNat
  (bits / twoTo 63 = 1, bits / twoTo 52 % twoTo 11, bits % twoTo 52)

/-- A finite double is `significand * 2 ^ (exponent - 1075)`; the least exponent is 1. -/
structure Magnitude where
  significand : Nat
  exponent : Nat
  deriving DecidableEq, Repr

def magnitude (x : Float) : Magnitude :=
  let (_, exponent, fraction) := fields x
  if exponent = 0 then ⟨fraction, 1⟩ else ⟨twoTo 52 + fraction, exponent⟩

def isNegative (x : Float) : Bool := (fields x).1

/-- The double of a sign, an exponent field and a fraction field. -/
def ofFields (negative : Bool) (exponent fraction : Nat) : Float :=
  Float.ofBits (UInt64.ofNat
    ((if negative then twoTo 63 else 0) + exponent * twoTo 52 + fraction))

def infinity : Float := ofFields false 2047 0

/-- The nearest whole number to `n / d`, a half going to the even neighbour. -/
def roundRatio (n d : Nat) : Nat :=
  let q := n / d
  let twice := 2 * (n % d)
  if d < twice ∨ (twice = d ∧ q % 2 = 1) then q + 1 else q

/-- `n / d` in units of `2 ^ (exponent - 1075)`, rounded. -/
def unitsAt (n d exponent : Nat) : Nat :=
  if exponent ≤ 1075 then roundRatio (n * twoTo (1075 - exponent)) d
  else roundRatio n (d * twoTo (exponent - 1075))

/-- The largest exponent field from `1` to `guess` that leaves a full significand, or `1`. -/
def fittingExponent (n d : Nat) : Nat → Nat
  | 0 => 1
  | guess + 1 =>
    let units := if guess + 1 ≤ 1075 then n * twoTo (1075 - (guess + 1)) / d
      else n / (d * twoTo (guess + 1 - 1075))
    if guess = 0 ∨ twoTo 52 ≤ units then guess + 1 else fittingExponent n d guess

/-- The double nearest to `n / d`; a ratio too large for any is infinite. -/
def ofRatio (n d : Nat) : Float :=
  if n = 0 ∨ d = 0 then 0
  else
    let guess := (n.log2 + 1 + 1075 - 52) - d.log2
    let exponent := fittingExponent n d (Nat.min 2048 (guess + 1))
    let units := unitsAt n d exponent
    let (units, exponent) :=
      if units = twoTo 53 then (twoTo 52, exponent + 1) else (units, exponent)
    if 2047 ≤ exponent then infinity
    else if units < twoTo 52 then ofFields false 0 units
    else ofFields false exponent (units - twoTo 52)

/-- The double nearest to a whole number. -/
def ofNat (n : Nat) : Float := ofRatio n 1

/-- The double nearest to `digits * 10 ^ exponent`. Beyond 400 powers of ten past the digits every
value is zero or infinite, so that larger exponents are not written out. -/
def ofDecimalDigits (digits : Nat) (exponent : Int) : Float :=
  if digits = 0 then 0
  else
    let digitCount : Nat := digits.log2 / 3 + 1
    if 400 < exponent then infinity
    else if exponent < -(400 + digitCount : Int) then 0
    else if 0 ≤ exponent then ofRatio (digits * tenTo exponent.toNat) 1
    else ofRatio digits (tenTo (-exponent).toNat)

end FuturesDesk.Binary64
