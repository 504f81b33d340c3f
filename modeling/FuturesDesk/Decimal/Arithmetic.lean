import FuturesDesk.Decimal.Basic

/-! Arithmetic on decimals. An exact result with too many digits is cut to the fewest dropped places
that make it fit, a half going to the even neighbour; a result whose whole part does not fit is a
fault. -/
namespace FuturesDesk.Decimal

/-- The quotient to the nearest whole number, a half going to the even neighbour. -/
def roundHalfEven (n d : Nat) : Nat :=
  let q := n / d
  let twice := 2 * (n % d)
  if d < twice ∨ (twice = d ∧ q % 2 = 1) then q + 1 else q

/-- How many low digits are dropped from `n` until the rest is below the bound. -/
def excessDigits (n : Nat) : Nat :=
  if n < coefficientBound then 0 else excessDigits (n / 10) + 1
termination_by n
decreasing_by
  have : 0 < coefficientBound := by decide
  omega

/-- The coefficient and places of `n / 10 ^ scale` cut to the range, if its whole part fits. A
round-up onto the bound costs one more place. -/
def fitMagnitude? (n scale : Nat) : Option (Nat × Nat) :=
  let dropped := Nat.max (excessDigits n) (scale - maxScale)
  if scale < dropped then none
  else
    let m := roundHalfEven n (tenTo dropped)
    if m < coefficientBound then some (m, scale - dropped)
    else if scale = dropped then none
    else some (roundHalfEven m 10, scale - dropped - 1)

/-- The decimal nearest to `n / 10 ^ scale`. -/
def fit? (n : Int) (scale : Nat) : Option Decimal :=
  (fitMagnitude? n.natAbs scale).bind fun (m, places) =>
    ofParts? (if n < 0 then -(m : Int) else m) places

/-- The exact sum's coefficient over the larger number of places. -/
def alignedSum (a b : Decimal) : Int :=
  let places := Nat.max a.scale b.scale
  a.coefficient * tenTo (places - a.scale) + b.coefficient * tenTo (places - b.scale)

/-- A zero operand leaves the other one unchanged, places included. -/
def add? (a b : Decimal) : Option Decimal :=
  if a.isZero then some b
  else if b.isZero then some a
  else fit? (alignedSum a b) (Nat.max a.scale b.scale)

def add (a b : Decimal) : Except Fault Decimal :=
  match add? a b with
  | some c => .ok c
  | none => .error .addition

def sub (a b : Decimal) : Except Fault Decimal :=
  match add? a (-b) with
  | some c => .ok c
  | none => .error .subtraction

/-- The sum from zero on, from left to right. -/
def sum (ds : List Decimal) : Except Fault Decimal :=
  ds.foldlM add zero

/-- A product that lies beyond reach of 19 digits below the last place is plain zero. -/
def vanishes (a b : Decimal) : Bool :=
  a.coefficient.natAbs < twoTo 32 ∧ b.coefficient.natAbs < twoTo 32
    ∧ maxScale + 19 < a.scale + b.scale

def mul (a b : Decimal) : Except Fault Decimal :=
  if a.isZero ∨ b.isZero ∨ vanishes a b then .ok zero
  else
    match fit? (a.coefficient * b.coefficient) (a.scale + b.scale) with
    | some c => .ok c
    | none => .error .multiplication

/-- How many further digits, at most nine, a quotient `q` with `scale` places can take. -/
def roomFor (q : Nat) (scale : Int) : Nat :=
  ((List.range 10).filter fun (k : Nat) =>
    scale + k ≤ maxScale ∧ q * tenTo k + tenTo k - 1 < coefficientBound).getLastD 0

/-- A quotient under way: the digits found, their places and the remainder. -/
structure Quotient where
  digits : Nat
  scale : Int
  remainder : Nat
  deriving DecidableEq

/-- The next `k` digits of a long division. -/
def Quotient.extend (s : Quotient) (k divisor : Nat) : Quotient where
  digits := s.digits * tenTo k + s.remainder * tenTo k / divisor
  scale := s.scale + k
  remainder := s.remainder * tenTo k % divisor

/-- The last digit is rounded by the remainder; a carry out of the range costs a place. -/
def Quotient.round (s : Quotient) (divisor : Nat) : Option Quotient :=
  let m := roundHalfEven (s.digits * divisor + s.remainder) divisor
  if m < coefficientBound then some { s with digits := m }
  else if 0 < s.scale then
    some { s with digits := roundHalfEven m 10, scale := s.scale - 1 }
  else none

/-- Long division until the remainder is spent or the range is full, and whether it ever left a
remainder. Each round takes up to nine digits, so `fuel` counts rounds. -/
def divideLoop (divisor : Nat) : Nat → Bool → Quotient → Option (Bool × Quotient)
  | 0, _, _ => none
  | fuel + 1, rest, s =>
    if s.remainder = 0 then
      if 0 ≤ s.scale then some (rest, s)
      else
        let next := s.extend (Nat.min 9 (-s.scale).toNat) divisor
        if next.digits < coefficientBound then divideLoop divisor fuel rest next else none
    else
      let k := if s.scale = maxScale then 0 else roomFor s.digits s.scale
      if k < 9 ∧ s.scale + k < 0 then none
      else if k = 0 then (s.round divisor).map (true, ·)
      else divideLoop divisor fuel true (s.extend k divisor)

/-- One try to strip `k` zeros at once: allowed when the low `k` bits are clear. -/
def stripZeros (k : Nat) (s : Quotient) : Option Quotient :=
  if s.digits % twoTo k = 0 ∧ k ≤ s.scale ∧ s.digits % tenTo k = 0 then
    some { s with digits := s.digits / tenTo k, scale := s.scale - k }
  else none

/-- Zeros go by eights while the low word is clear, then at most once by four, two and one. -/
def stripQuotient (s : Quotient) : Quotient :=
  let s := byEights 3 s
  [4, 2, 1].foldl (fun s k => (stripZeros k s).getD s) s
where
  byEights : Nat → Quotient → Quotient
    | 0, s => s
    | fuel + 1, s =>
      if s.digits % twoTo 32 = 0 then
        match stripZeros 8 s with
        | some s => byEights fuel s
        | none => s
      else s

/-- The quotient of two magnitudes with the places of a division. -/
def divideMagnitudes (n m : Nat) (scale : Int) : Option Quotient :=
  (divideLoop m 16 false ⟨n / m, scale, n % m⟩).map fun (rest, s) =>
    if rest then stripQuotient s else s

def div (a b : Decimal) : Except Fault Decimal :=
  if b.isZero then .error .divisionByZero
  else if a.isZero then .ok zero
  else
    match divideMagnitudes a.coefficient.natAbs b.coefficient.natAbs (a.scale - b.scale) with
    | none => .error .division
    | some s =>
      match ofParts? (if (a.coefficient < 0) = (b.coefficient < 0) then s.digits else -s.digits)
          s.scale.toNat with
      | some c => .ok c
      | none => .error .division

/-- At most `places` digits after the point, a half going to the even neighbour. -/
def roundPlaces (places : Nat) (d : Decimal) : Decimal :=
  if d.scale ≤ places then d
  else
    let m := roundHalfEven d.coefficient.natAbs (tenTo (d.scale - places))
    (ofParts? (if d.coefficient < 0 then -(m : Int) else m) places).getD d

/-- Without the zeros that end the places. -/
def normalize (d : Decimal) : Decimal :=
  strip d.scale d
where
  strip : Nat → Decimal → Decimal
    | 0, d => d
    | n + 1, d =>
      if d.coefficient % 10 = 0 then
        match ofParts? (d.coefficient / 10) n with
        | some shorter => strip n shorter
        | none => d
      else d

end FuturesDesk.Decimal
