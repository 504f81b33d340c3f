import FuturesDesk.Exchange.Call

/-! A market that follows a script: prices and fills one after another, failures and delays for each
kind of call. It keeps a log of the calls that reached it. -/
namespace FuturesDesk

/-- One entry for each kind of call. -/
structure PerCall (α : Type) where
  candles : α
  price : α
  balance : α
  setLeverage : α
  placeOrder : α

namespace PerCall

variable {α : Type}

def get (p : PerCall α) : ExchangeCall → α
  | .candles _ _ _ => p.candles
  | .price _ => p.price
  | .balance => p.balance
  | .setLeverage _ _ => p.setLeverage
  | .placeOrder _ => p.placeOrder

def set (p : PerCall α) (a : α) : ExchangeCall → PerCall α
  | .candles _ _ _ => { p with candles := a }
  | .price _ => { p with price := a }
  | .balance => { p with balance := a }
  | .setLeverage _ _ => { p with setLeverage := a }
  | .placeOrder _ => { p with placeOrder := a }

end PerCall

structure ScriptedMarket where
  daily : List Candle := []
  weekly : List Candle := []
  /-- The prices still to come; when they are used up, the last one stays. -/
  prices : List Decimal := []
  lastPrice : Decimal := .hundred
  balance : Decimal := .ofWord 10000
  /-- The average prices of the next fills, each of which may be untold. -/
  fillPrices : List (Option Decimal) := []
  /-- How the next calls of each kind fail, if they do. -/
  failures : PerCall (List (Option GatewayError)) := ⟨[], [], [], [], []⟩
  /-- Milliseconds before a call of each kind is answered. -/
  latency : PerCall Nat := ⟨0, 0, 0, 0, 0⟩
  knowsIds : Bool := false
  fillCount : Nat := 0
  /-- The calls so far, the last one first. -/
  log : List ExchangeCall := []

namespace ScriptedMarket

def candles (m : ScriptedMarket) : Timeframe → List Candle
  | .daily => m.daily
  | .weekly => m.weekly

def lastCandles (m : ScriptedMarket) (t : Timeframe) (lookback : Nat) : List Candle :=
  (m.candles t).drop ((m.candles t).length - lookback)

def nextPrice (m : ScriptedMarket) : Decimal × ScriptedMarket :=
  match m.prices with
  | [] => (m.lastPrice, m)
  | p :: rest => (p, { m with prices := rest, lastPrice := p })

def fill (m : ScriptedMarket) : OrderAck × ScriptedMarket :=
  let count := m.fillCount + 1
  (⟨"mock-" ++ toString count, m.fillPrices.head?.join⟩,
    { m with fillCount := count, fillPrices := m.fillPrices.tail })

/-- A call that does not fail. -/
def succeed (m : ScriptedMarket) : (c : ExchangeCall) → c.Value × ScriptedMarket
  | .candles _ t lookback => (m.lastCandles t lookback, m)
  | .price _ => m.nextPrice
  | .balance => (m.balance, m)
  | .setLeverage _ _ => ((), m)
  | .placeOrder _ => m.fill

/-- Logs a call and answers it. -/
def answer (m : ScriptedMarket) (c : ExchangeCall) : c.Reply × ScriptedMarket :=
  let failures := m.failures.get c
  let logged :=
    { m with log := c :: m.log, failures := m.failures.set failures.tail c }
  match failures.head?.join with
  | some e => (.error e, logged)
  | none =>
    let (value, m) := logged.succeed c
    (.ok value, m)

/-- The calls since the log was last taken, in order. -/
def takeLog (m : ScriptedMarket) : List ExchangeCall × ScriptedMarket :=
  (m.log.reverse, { m with log := [] })

end ScriptedMarket

end FuturesDesk
