import FuturesDesk.Binary64.Rounding

/-! The exponential moving average, seeded with the plain average of the first `period` values. -/
namespace FuturesDesk.Ema

/-- The sum from left to right, starting at negative zero. -/
def sum (values : List Float) : Float := values.foldl (· + ·) (-0.0)

def next (weight average value : Float) : Float := (value - average) * weight + average

/-- The averages from a given one on. -/
def run (weight : Float) : Float → List Float → List Float
  | average, [] => [average]
  | average, value :: rest => average :: run weight (next weight average value) rest

def weight (period : Nat) : Float := 2.0 / (Binary64.ofNat period + 1.0)

def seed (period : Nat) (values : List Float) : Float :=
  sum (values.take period) / Binary64.ofNat period

/-- The averages at the values from number `period` on; none for fewer values. -/
def series (period : Nat) (values : List Float) : List Float :=
  if period = 0 ∨ values.length < period then []
  else run (weight period) (seed period values) (values.drop period)

theorem length_run (w a : Float) (values : List Float) :
    (run w a values).length = values.length + 1 := by
  induction values generalizing a with
  | nil => rfl
  | cons v rest ih => simp [run, ih]

end FuturesDesk.Ema
