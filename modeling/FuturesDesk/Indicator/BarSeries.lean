import FuturesDesk.Decimal.Arithmetic
import FuturesDesk.Decimal.ToFloat
import FuturesDesk.Market.Candle

/-! Candles rolled up into bars of one timeframe. A bar spans a calendar day, or a week from Monday
on, in UTC; it takes the candles that open in its span and follow each other in the list. -/
namespace FuturesDesk

structure Bar where
  endTime : Timestamp
  opening : Decimal
  high : Decimal
  low : Decimal
  closing : Decimal
  volume : Decimal
  deriving DecidableEq

namespace Bar

def ofCandle (c : Candle) : Bar :=
  ⟨c.closeTime, c.opening, c.high, c.low, c.closing, c.volume⟩

/-- The bar with one more candle at its end. -/
def extend (b : Bar) (c : Candle) : Except Decimal.Fault Bar := do
  return {
    endTime := c.closeTime
    opening := b.opening
    high := b.high.max c.high
    low := b.low.min c.low
    closing := c.closing
    volume := ← b.volume.add c.volume }

end Bar

/-- Seconds from the epoch to the first Monday after it. -/
def firstMonday : Int := 4 * 86400

/-- The number of the day or week in which a candle opens. -/
def Timeframe.bucket (t : Timeframe) (c : Candle) : Int :=
  (c.openTime.seconds - firstMonday) / t.barSeconds

/-- The index of the first candle that closes at or before its predecessor. -/
def firstOutOfOrder? : List Candle → Option Nat
  | a :: b :: rest =>
    if b.closeTime ≤ a.closeTime then some 1 else (firstOutOfOrder? (b :: rest)).map (· + 1)
  | _ => none

structure BarSeries where
  timeframe : Timeframe
  bars : List Bar
  deriving DecidableEq

namespace BarSeries

inductive Failure where
  | outOfOrder (index : Nat)
  | fault (cause : Decimal.Fault)
  deriving DecidableEq

/-- The bars of the candles after a bar under way, whose bucket is given. -/
def rollUp (t : Timeframe) (bucket : Int) (bar : Bar) :
    List Candle → Except Decimal.Fault (List Bar)
  | [] => .ok [bar]
  | c :: rest => do
    if t.bucket c = bucket then rollUp t bucket (← bar.extend c) rest
    else return bar :: (← rollUp t (t.bucket c) (.ofCandle c) rest)

def barsOf (t : Timeframe) : List Candle → Except Decimal.Fault (List Bar)
  | [] => .ok []
  | c :: rest => rollUp t (t.bucket c) (.ofCandle c) rest

def ofCandles (t : Timeframe) (candles : List Candle) : Except Failure BarSeries :=
  match firstOutOfOrder? candles with
  | some index => .error (.outOfOrder index)
  | none =>
    match barsOf t candles with
    | .ok bars => .ok ⟨t, bars⟩
    | .error cause => .error (.fault cause)

def closes (s : BarSeries) : List Float := s.bars.map fun b => b.closing.toFloat

def outOfOrderMessage (index : Nat) : String :=
  "candle " ++ toString index ++ " closes at or before its predecessor"

end BarSeries

end FuturesDesk
