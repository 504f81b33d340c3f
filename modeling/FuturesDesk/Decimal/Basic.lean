import FuturesDesk.Power

/-! Decimals with a fixed number of places: an integer coefficient of at most 96 bits over a power
of ten of at most 28. The places are kept, so `98.000` and `98` differ as data and agree in the
order. -/
namespace FuturesDesk

/-- Every coefficient is smaller in size: `2 ^ 96`. -/
abbrev Decimal.coefficientBound : Nat := 79_228_162_514_264_337_593_543_950_336

/-- The largest number of places. -/
abbrev Decimal.maxScale : Nat := 28

structure Decimal where
  coefficient : Int
  scale : Nat
  coefficient_lt : coefficient.natAbs < Decimal.coefficientBound
  scale_le : scale ≤ Decimal.maxScale
  deriving DecidableEq

namespace Decimal

/-- The causes for which an operation has no result. -/
inductive Fault where
  | addition
  | subtraction
  | multiplication
  | division
  | divisionByZero
  deriving DecidableEq, Repr

def Fault.message : Fault → String
  | addition => "Addition overflowed"
  | subtraction => "Subtraction overflowed"
  | multiplication => "Multiplication overflowed"
  | division => "Division overflowed"
  | divisionByZero => "Division by zero"

/-- The decimal of a coefficient and a number of places, if it is in range. -/
def ofParts? (coefficient : Int) (scale : Nat) : Option Decimal :=
  if h : coefficient.natAbs < coefficientBound ∧ scale ≤ maxScale then
    some ⟨coefficient, scale, h.1, h.2⟩
  else none

def zero : Decimal := ⟨0, 0, by decide, by decide⟩

def one : Decimal := ⟨1, 0, by decide, by decide⟩

def negOne : Decimal := ⟨-1, 0, by decide, by decide⟩

def hundred : Decimal := ⟨100, 0, by decide, by decide⟩

instance : Inhabited Decimal := ⟨zero⟩

/-- A machine word as a whole number. -/
def ofWord (n : UInt32) : Decimal :=
  ⟨n.toNat, 0, by
    have := n.toNat_lt
    simp only [Int.natAbs_natCast, coefficientBound]
    omega, by decide⟩

def isZero (d : Decimal) : Bool := d.coefficient = 0

/-- Zero counts as non-negative. -/
def isNonneg (d : Decimal) : Bool := 0 ≤ d.coefficient

def neg (d : Decimal) : Decimal :=
  ⟨-d.coefficient, d.scale, by simpa using d.coefficient_lt, d.scale_le⟩

instance : Neg Decimal := ⟨neg⟩

def abs (d : Decimal) : Decimal :=
  ⟨d.coefficient.natAbs, d.scale, by rw [Int.natAbs_natCast]; exact d.coefficient_lt,
    d.scale_le⟩

/-- Numeric order: coefficients are compared over a common power of ten. -/
instance : LE Decimal :=
  ⟨fun a b => a.coefficient * tenTo b.scale ≤ b.coefficient * tenTo a.scale⟩

instance : LT Decimal :=
  ⟨fun a b => a.coefficient * tenTo b.scale < b.coefficient * tenTo a.scale⟩

instance (a b : Decimal) : Decidable (a ≤ b) :=
  inferInstanceAs (Decidable (a.coefficient * tenTo b.scale ≤ b.coefficient * tenTo a.scale))

instance (a b : Decimal) : Decidable (a < b) :=
  inferInstanceAs (Decidable (a.coefficient * tenTo b.scale < b.coefficient * tenTo a.scale))

/-- The greater of two; the left one when they are numerically equal. -/
def max (a b : Decimal) : Decimal := if a < b then b else a

/-- The smaller of two; the left one when they are numerically equal. -/
def min (a b : Decimal) : Decimal := if b < a then b else a

theorem le_def {a b : Decimal} :
    a ≤ b ↔ a.coefficient * tenTo b.scale ≤ b.coefficient * tenTo a.scale := Iff.rfl

theorem lt_def {a b : Decimal} :
    a < b ↔ a.coefficient * tenTo b.scale < b.coefficient * tenTo a.scale := Iff.rfl

theorem zero_lt_iff {a : Decimal} : zero < a ↔ 0 < a.coefficient := by
  simp [lt_def, zero]

theorem le_zero_iff {a : Decimal} : a ≤ zero ↔ a.coefficient ≤ 0 := by
  simp [le_def, zero]

@[simp] theorem neg_coefficient (a : Decimal) : (-a).coefficient = -a.coefficient := rfl

@[simp] theorem neg_scale (a : Decimal) : (-a).scale = a.scale := rfl

@[simp] theorem abs_coefficient (a : Decimal) : a.abs.coefficient = a.coefficient.natAbs := rfl

@[simp] theorem abs_scale (a : Decimal) : a.abs.scale = a.scale := rfl

/-- The decimal digits of `n`, at least `width` of them. -/
def paddedDigits (width n : Nat) : List Char :=
  let digits := Nat.toDigits 10 n
  List.replicate (width - digits.length) '0' ++ digits

/-- The text with exactly `scale` digits after the point. -/
def toText (d : Decimal) : String :=
  let digits := paddedDigits (d.scale + 1) d.coefficient.natAbs
  let whole := digits.take (digits.length - d.scale)
  let places := digits.drop (digits.length - d.scale)
  let unsigned := if places.isEmpty then whole else whole ++ '.' :: places
  String.ofList (if d.coefficient < 0 then '-' :: unsigned else unsigned)

end Decimal

end FuturesDesk
