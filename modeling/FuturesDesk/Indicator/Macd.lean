import FuturesDesk.Dialect
import FuturesDesk.Indicator.Ema

/-! Moving average convergence and divergence: the fast average less the slow one, and the average
of that line as its signal. -/
namespace FuturesDesk

/-- Periods in bars. -/
structure MacdParams where
  fast : Nat
  slow : Nat
  signal : Nat
  deriving DecidableEq, Repr

namespace MacdParams

def standard : MacdParams := ⟨12, 26, 9⟩

def IsValid (p : MacdParams) : Prop := 0 < p.fast ∧ 0 < p.signal ∧ p.fast < p.slow

instance (p : MacdParams) : Decidable p.IsValid :=
  inferInstanceAs (Decidable (0 < p.fast ∧ 0 < p.signal ∧ p.fast < p.slow))

/-- Bars before the line has a value. -/
def lineLookback (p : MacdParams) : Nat := p.slow

/-- Bars before the signal has a value. -/
def signalLookback (p : MacdParams) : Nat := p.slow + p.signal - 1

def read? {V : Type} (d : Dialect V) (value : V) : Option MacdParams := do
  let r ← d.record? ["fast", "slow", "signal"] value
  return {
    fast := ← r.required "fast" (d.unsigned? 64)
    slow := ← r.required "slow" (d.unsigned? 64)
    signal := ← r.required "signal" (d.unsigned? 64) }

end MacdParams

namespace Macd

/-- One value per bar from bar number `slow` on. The fast average starts `slow - fast` bars earlier,
so that many of its values are left out. -/
def line (p : MacdParams) (closes : List Float) : List Float :=
  if p.IsValid then
    List.zipWith (fun slow fast => fast - slow) (Ema.series p.slow closes)
      ((Ema.series p.fast closes).drop (p.slow - p.fast))
  else []

def latest? (p : MacdParams) (closes : List Float) : Option Float := (line p closes).getLast?

def signal? (p : MacdParams) (closes : List Float) : Option Float :=
  (Ema.series p.signal (line p closes)).getLast?

def histogram? (p : MacdParams) (closes : List Float) : Option Float := do
  let macd ← latest? p closes
  let signal ← signal? p closes
  return macd - signal

end Macd

end FuturesDesk
