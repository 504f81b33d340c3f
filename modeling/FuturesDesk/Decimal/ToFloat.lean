import FuturesDesk.Binary64.Rounding
import FuturesDesk.Decimal.Basic

/-! The double that stands for a decimal: whole numbers correctly rounded, others as the whole part
plus the fraction, rounded to the decimal's places in double arithmetic. -/
namespace FuturesDesk.Decimal

/-- Ten to a power by repeated squaring, in double arithmetic. -/
def floatPowerOfTen (n : Nat) : Float :=
  go 6 n 1 10
where
  go : Nat → Nat → Float → Float → Float
    | 0, _, result, _ => result
    | fuel + 1, n, result, square =>
      let result := if n % 2 = 1 then result * square else result
      if n / 2 = 0 then result else go fuel (n / 2) result (square * square)

def floatMagnitude (m scale : Nat) : Float :=
  if scale = 0 then Binary64.ofNat m
  else
    let whole := Binary64.ofNat (m / tenTo scale)
    let fraction := Binary64.ofNat (m % tenTo scale) / Binary64.ofNat (tenTo scale)
    if fraction == 0 then whole
    else
      let unit := floatPowerOfTen scale
      ((whole + fraction) * unit).round / unit

def toFloat (d : Decimal) : Float :=
  let x := floatMagnitude d.coefficient.natAbs d.scale
  if d.coefficient < 0 then -x else x

end FuturesDesk.Decimal
