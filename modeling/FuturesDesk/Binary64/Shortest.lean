import FuturesDesk.Binary64.Rounding

/-! The shortest decimal that reads back as a given double. A decimal `k * 10 ^ e` reads back when
it lies between the midpoints to the neighbouring doubles, the midpoints included for an even
significand. The coarsest power of ten with such a `k` wins, and of two hits the nearer one. -/
namespace FuturesDesk.Binary64

/-- The decimal `digits * 10 ^ exponent`. -/
structure Digits where
  digits : Nat
  exponent : Int
  deriving DecidableEq, Repr

/-- The reals that round to a positive double, over a common denominator. -/
structure Interval where
  low : Nat
  value : Nat
  high : Nat
  denominator : Nat
  closed : Bool

def Interval.ofMagnitude (m : Magnitude) : Interval :=
  let lower := if m.significand = twoTo 52 ∧ 1 < m.exponent then 1 else 2
  let up := twoTo (m.exponent - 1077)
  { low := (4 * m.significand - lower) * up
    value := 4 * m.significand * up
    high := (4 * m.significand + 2) * up
    denominator := twoTo (1077 - m.exponent)
    closed := m.significand % 2 = 0 }

/-- The number `k` of steps of `10 ^ exponent` as a numerator, and what the interval is scaled by.
-/
def gridScale (exponent : Int) : Nat × Nat :=
  if 0 ≤ exponent then (tenTo exponent.toNat, 1) else (1, tenTo (-exponent).toNat)

def Interval.holds (i : Interval) (exponent : Int) (k : Nat) : Bool :=
  let (step, widen) := gridScale exponent
  let point := k * step * i.denominator
  if i.closed then i.low * widen ≤ point ∧ point ≤ i.high * widen
  else i.low * widen < point ∧ point < i.high * widen

/-- The point of the grid of `10 ^ exponent` that reads back and is nearest to the value; a tie goes
to the even number of steps. -/
def Interval.nearestOnGrid (i : Interval) (exponent : Int) : Option Nat :=
  let (step, widen) := gridScale exponent
  let unit := step * i.denominator
  let below := i.value * widen / unit
  let rest := 2 * (i.value * widen % unit)
  let (first, second) :=
    if unit < rest ∨ (rest = unit ∧ below % 2 = 1) then (below + 1, below) else (below, below + 1)
  if i.holds exponent first then some first
  else if i.holds exponent second then some second
  else none

/-- The first hit on the grids from `10 ^ exponent` downwards. -/
def Interval.search (i : Interval) (exponent : Int) : Nat → Digits
  | 0 => ⟨0, 0⟩
  | fuel + 1 =>
    match i.nearestOnGrid exponent with
    | some k => if k = 0 then search i (exponent - 1) fuel else ⟨k, exponent⟩
    | none => search i (exponent - 1) fuel

/-- An exponent whose power of ten exceeds the value: three bits give less than one digit. -/
def gridAbove (m : Magnitude) : Int :=
  let bits : Int := m.significand.log2 + m.exponent - 1075
  if 0 ≤ bits then bits * 302 / 1000 + 1 else bits * 301 / 1000 + 1

/-- The shortest digits of a positive finite double. -/
def shortest (m : Magnitude) : Digits :=
  if m.significand = 0 then ⟨0, 0⟩
  else (Interval.ofMagnitude m).search (gridAbove m) 40

end FuturesDesk.Binary64
