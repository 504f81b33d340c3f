import FuturesDesk.Exchange.Call
import FuturesDesk.Exchange.PaperAccount

/-! An exchange whose orders are simulated: candles and prices come from a market, leverage, margin
and fills from a paper account. An order looks at the account, reads the price, and settles; others
may use the account in between. -/
namespace FuturesDesk.Paper

/-- One use of the account. -/
inductive AccountStep where
  | wallet
  | setLeverage (symbol : String) (leverage : UInt32)
  | review (order : Order)
  | settle (order : Order) (price : Decimal)
  deriving DecidableEq

abbrev AccountStep.Reply : AccountStep → Type
  | wallet => Decimal
  | setLeverage _ _ => Except GatewayError Unit
  | review _ => Option (Except GatewayError OrderAck)
  | settle _ _ => Except Decimal.Fault (Except GatewayError OrderAck)

/-- Each use of the account is one indivisible step. -/
def AccountStep.apply : (s : AccountStep) → PaperAccount → s.Reply × PaperAccount
  | wallet, a => (a.wallet, a)
  | setLeverage symbol leverage, a => a.setLeverage symbol leverage
  | review order, a => (a.review order, a)
  | settle order price, a => a.settle order price

inductive Step where
  | account (step : AccountStep)
  | market (call : ExchangeCall)
  deriving DecidableEq

abbrev Step.Reply : Step → Type
  | account s => s.Reply
  | market c => c.Reply

abbrev Task (α : Type) : Type := Program Step Step.Reply α

def account (s : AccountStep) : Task s.Reply := Program.question (Step.account s)

def market (c : ExchangeCall) : Task c.Reply := Program.question (Step.market c)

def placeOrder (order : Order) : Task (Except GatewayError OrderAck) := do
  match ← account (.review order) with
  | some answer => return answer
  | none =>
    match ← market (.price order.symbol) with
    | .error e => return .error e
    | .ok price => Program.ofExcept (← account (.settle order price))

/-- How an exchange call is carried out. -/
def call : (c : ExchangeCall) → Task c.Reply
  | .candles symbol timeframe lookback => market (.candles symbol timeframe lookback)
  | .price symbol => market (.price symbol)
  | .balance => do return .ok (← account .wallet)
  | .setLeverage symbol leverage => account (.setLeverage symbol leverage)
  | .placeOrder order => placeOrder order

end FuturesDesk.Paper
