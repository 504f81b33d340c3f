import FuturesDesk.Gateway.Error
import FuturesDesk.Market.Candle
import FuturesDesk.Market.Order
import FuturesDesk.Program

/-! The calls that bots make on an exchange. An exchange may be the real one, a simulated account
over it, or either behind a guard; all of them take these calls. -/
namespace FuturesDesk

inductive ExchangeCall where
  /-- The last `lookback` candles of a symbol. -/
  | candles (symbol : String) (timeframe : Timeframe) (lookback : Nat)
  | price (symbol : String)
  | balance
  | setLeverage (symbol : String) (leverage : UInt32)
  | placeOrder (order : Order)
  deriving DecidableEq

namespace ExchangeCall

/-- What a successful call gives. -/
abbrev Value : ExchangeCall → Type
  | candles _ _ _ => List Candle
  | price _ => Decimal
  | balance => Decimal
  | setLeverage _ _ => Unit
  | placeOrder _ => OrderAck

abbrev Reply (c : ExchangeCall) : Type := Except GatewayError c.Value

/-- The class whose budget and circuit a call uses. -/
def endpoint : ExchangeCall → EndpointClass
  | candles _ _ _ => .marketData
  | price _ => .marketData
  | balance => .account
  | setLeverage _ _ => .account
  | placeOrder _ => .order

end ExchangeCall

/-- A program that uses an exchange. -/
abbrev ExchangeProgram (α : Type) : Type := Program ExchangeCall ExchangeCall.Reply α

/-- One call as a program. -/
def ExchangeProgram.call (c : ExchangeCall) : ExchangeProgram c.Reply := Program.question c

end FuturesDesk
