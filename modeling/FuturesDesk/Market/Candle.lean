import FuturesDesk.Dialect
import FuturesDesk.Json.Basic
import FuturesDesk.Time.Rfc3339

/-! Price candles and the two timeframes in which they are read. -/
namespace FuturesDesk

inductive Timeframe where
  | daily
  | weekly
  deriving DecidableEq, Repr

namespace Timeframe

def name : Timeframe → String
  | daily => "daily"
  | weekly => "weekly"

/-- The name of the timeframe among other programs' names. -/
def debugName : Timeframe → String
  | daily => "Daily"
  | weekly => "Weekly"

/-- How exchanges abbreviate the length of a bar. -/
def interval : Timeframe → String
  | daily => "1d"
  | weekly => "1w"

def barSeconds : Timeframe → Nat
  | daily => 86400
  | weekly => 604800

def all : List Timeframe := [daily, weekly]

def ofName? (name : String) : Option Timeframe := all.find? (·.name = name)

def read? {V : Type} (d : Dialect V) (value : V) : Option Timeframe :=
  (d.choice? (all.map name) value).bind ofName?

end Timeframe

structure Candle where
  openTime : Timestamp
  closeTime : Timestamp
  opening : Decimal
  high : Decimal
  low : Decimal
  closing : Decimal
  volume : Decimal
  deriving DecidableEq

namespace Candle

def read? {V : Type} (d : Dialect V) (value : V) : Option Candle := do
  let time? (v : V) : Option Timestamp := (d.string? v).bind Rfc3339.read?
  let r ← d.record? ["open_time", "close_time", "open", "high", "low", "close", "volume"] value
  return {
    openTime := ← r.required "open_time" time?
    closeTime := ← r.required "close_time" time?
    opening := ← r.required "open" d.decimal?
    high := ← r.required "high" d.decimal?
    low := ← r.required "low" d.decimal?
    closing := ← r.required "close" d.decimal?
    volume := ← r.required "volume" d.decimal? }

def toJson (c : Candle) : Json :=
  .object [
    ("open_time", .string (Rfc3339.render c.openTime)),
    ("close_time", .string (Rfc3339.render c.closeTime)),
    ("open", .string c.opening.toText),
    ("high", .string c.high.toText),
    ("low", .string c.low.toText),
    ("close", .string c.closing.toText),
    ("volume", .string c.volume.toText)]

end Candle

end FuturesDesk
