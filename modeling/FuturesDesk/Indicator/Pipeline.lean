import FuturesDesk.Indicator.BarSeries
import FuturesDesk.Indicator.Macd
import FuturesDesk.Indicator.Rsi
import FuturesDesk.Text.Quoted

/-! Indicators by name, and the readings they give over candles of both timeframes. A reading that
is not available yet is a normal state. -/
namespace FuturesDesk

inductive MacdOutput where
  | line
  | signal
  | histogram
  deriving DecidableEq, Repr

inductive Indicator where
  | macd (params : MacdParams) (output : MacdOutput)
  | rsi (period : Nat)
  deriving DecidableEq, Repr

namespace Indicator

def name : Indicator → String
  | macd _ .line => "MACD"
  | macd _ .signal => "MACD_SIGNAL"
  | macd _ .histogram => "MACD_HISTOGRAM"
  | rsi _ => "RSI"

/-- Bars before there is a value. -/
def minBars : Indicator → Nat
  | macd p .line => p.lineLookback
  | macd p _ => p.signalLookback
  | rsi period => period + 1

def ofCloses? : Indicator → List Float → Option Float
  | macd p .line => Macd.latest? p
  | macd p .signal => Macd.signal? p
  | macd p .histogram => Macd.histogram? p
  | rsi period => Rsi.latest? period

/-- The indicators that configurations can name. -/
def standard : List Indicator :=
  [macd .standard .line, macd .standard .signal, macd .standard .histogram, rsi 14]

def ofName? (name : String) : Option Indicator := standard.find? (·.name = name)

/-- The value over candles, if they are in order and suffice. -/
def ofCandles? (i : Indicator) (t : Timeframe) (candles : List Candle) :
    Except Decimal.Fault (Option Float) :=
  match BarSeries.ofCandles t candles with
  | .ok series => .ok (i.ofCloses? series.closes)
  | .error (.outOfOrder _) => .ok none
  | .error (.fault cause) => .error cause

end Indicator

/-- Named readings of one timeframe, one for each name. -/
structure Readings where
  timeframe : Timeframe
  values : List (String × Option Float)

namespace Readings

/-- A later reading of a name replaces an earlier one. -/
def insert (name : String) (value : Option Float) :
    List (String × Option Float) → List (String × Option Float)
  | [] => [(name, value)]
  | (n, v) :: rest => if n = name then (n, value) :: rest else (n, v) :: insert name value rest

def ofList (t : Timeframe) (values : List (String × Option Float)) : Readings :=
  ⟨t, values.foldl (fun set (name, value) => insert name value set) []⟩

/-- The available reading of a name. -/
def get? (r : Readings) (name : String) : Option Float :=
  ((r.values.find? fun v => v.1 = name).map (·.2)).join

def names (r : Readings) : List String := r.values.map (·.1)

end Readings

/-- The readings of both timeframes at one tick. -/
structure Snapshot where
  daily : Readings
  weekly : Readings

namespace Snapshot

def readings (s : Snapshot) : Timeframe → Readings
  | .daily => s.daily
  | .weekly => s.weekly

def get? (s : Snapshot) (t : Timeframe) (name : String) : Option Float := (s.readings t).get? name

end Snapshot

/-- The indicators computed for every timeframe, in order. -/
structure Pipeline where
  indicators : List Indicator
  deriving DecidableEq, Repr

namespace Pipeline

def standard : Pipeline := ⟨Indicator.standard⟩

/-- The pipeline of configured names, or all names that are not known. -/
def ofNames (names : List String) : Except (List String) Pipeline :=
  match names.filter fun n => (Indicator.ofName? n).isNone with
  | [] => .ok ⟨names.filterMap Indicator.ofName?⟩
  | unknown => .error unknown

def names (p : Pipeline) : List String := p.indicators.map Indicator.name

def dump (p : Pipeline) : String := Text.bracketed (p.names.map Text.quoted)

def contains (p : Pipeline) (name : String) : Bool := p.names.contains name

/-- Bars of a timeframe that make every reading available. -/
def maxLookback (p : Pipeline) : Nat := (p.indicators.map Indicator.minBars).foldl Nat.max 0

def readingsOf (p : Pipeline) (t : Timeframe) (value? : Indicator → Option Float) : Readings :=
  .ofList t (p.indicators.map fun i => (i.name, value? i))

/-- The readings over candles; none is available when the candles are out of order. -/
def compute (p : Pipeline) (t : Timeframe) (candles : List Candle) :
    Except Decimal.Fault Readings :=
  match BarSeries.ofCandles t candles with
  | .ok series => .ok (p.readingsOf t fun i => i.ofCloses? series.closes)
  | .error (.outOfOrder _) => .ok (p.readingsOf t fun _ => none)
  | .error (.fault cause) => .error cause

def snapshot (p : Pipeline) (daily weekly : List Candle) : Except Decimal.Fault Snapshot := do
  return { daily := ← p.compute .daily daily, weekly := ← p.compute .weekly weekly }

end Pipeline

end FuturesDesk
