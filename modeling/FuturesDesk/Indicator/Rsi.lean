import FuturesDesk.Binary64.Rounding

/-! The relative strength index over the last `period` price changes, from plain averages of gains
and losses. -/
namespace FuturesDesk.Rsi

/-- The gains and losses so far with one more price change. -/
def addChange (gains losses change : Float) : Float × Float :=
  if 0.0 < change then (gains + change, losses) else (gains, losses - change)

/-- The sums of the gains and of the losses between neighbouring prices. -/
def sums : Float → Float → List Float → Float × Float
  | gains, losses, a :: b :: rest =>
    let (gains, losses) := addChange gains losses (b - a)
    sums gains losses (b :: rest)
  | gains, losses, _ => (gains, losses)

/-- The index of averages: 100 when nothing was lost. -/
def ofAverages (gain loss : Float) : Float :=
  if loss == 0.0 then 100.0 else 100.0 - 100.0 / (1.0 + gain / loss)

def latest? (period : Nat) (prices : List Float) : Option Float :=
  if period = 0 ∨ prices.length < period + 1 then none
  else
    let (gains, losses) := sums 0.0 0.0 (prices.drop (prices.length - period - 1))
    let count := Binary64.ofNat period
    some (ofAverages (gains / count) (losses / count))

end FuturesDesk.Rsi
