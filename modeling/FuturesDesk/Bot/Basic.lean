import FuturesDesk.Bot.Error
import FuturesDesk.Bot.Params
import FuturesDesk.Exchange.Call

/-! One bot. It reads candles and a price, decides by its rules, and acts on the decision. The
trailing stop changes only after the exchange took the order, so that a failed order leaves the bot
as it was. -/
namespace FuturesDesk

structure Bot where
  pipeline : Pipeline
  rules : Rules
  stop : TrailingStop
  trading : TradingConfig
  running : Bool := false
  /-- The decision to act on next, with the price at which it was made. -/
  pending : Option (Decision × Decimal) := none

inductive SkipReason where
  | noDecision
  | notOpen
  | botStopped
  | margin (balance required : Decimal)
  deriving DecidableEq

def SkipReason.text : SkipReason → String
  | noDecision => "no pending decision"
  | notOpen => "exit without an open position"
  | botStopped => "bot is stopped"
  | margin balance required =>
    "margin " ++ balance.toText ++ " below required " ++ required.toText

/-- What acting on a decision did. -/
inductive TradeOutcome where
  | entered (orderId : String) (direction : Direction) (price : Decimal)
  | exited (orderId : String) (reason : ExitReason)
  | held
  | skipped (reason : SkipReason)
  deriving DecidableEq

namespace Bot

/-- What an operation gives, and the bot afterwards. -/
abbrev Result (α : Type) : Type := Except BotError α × Bot

def ofParams (p : BotParams) : Bot :=
  { pipeline := p.pipeline, rules := p.rules, stop := p.stop, trading := p.trading }

def symbol (b : Bot) : String := b.trading.symbol

/-- Makes one call; a failure of it is the result. -/
def withReply {α : Type} (b : Bot) (c : ExchangeCall)
    (next : c.Value → ExchangeProgram (Result α)) : ExchangeProgram (Result α) := do
  match ← ExchangeProgram.call c with
  | .ok value => next value
  | .error e => return (.error (.gateway e), b)

/-- Sets the leverage on the exchange; from then on the bot takes ticks. -/
def start (b : Bot) : ExchangeProgram (Result Unit) :=
  if b.running then return (.ok (), b)
  else b.withReply (.setLeverage b.symbol b.trading.leverage) fun () =>
    return (.ok (), { b with running := true })

/-- Drops the position that is being followed and any decision; the exchange is left alone. -/
def halt (b : Bot) : Bot := { b with stop := b.stop.reset, pending := none, running := false }

/-- Decides at a price and keeps the decision for the next action. -/
def process (b : Bot) (snapshot : Snapshot) (price : Decimal) :
    Except Decimal.Fault (Decision × Bot) := do
  let decision ← b.rules.evaluate snapshot b.stop price
  return (decision, { b with pending := some (decision, price) })

def entryOrder (b : Bot) (direction : Direction) : Order where
  symbol := b.symbol
  side := direction.entrySide
  quantity := b.trading.quantity

def exitOrder (b : Bot) (direction : Direction) : Order where
  symbol := b.symbol
  side := direction.exitSide
  quantity := b.trading.quantity
  reduceOnly := true

/-- The margin that an entry at a price needs. -/
def requiredMargin (b : Bot) (price : Decimal) : Except Decimal.Fault Decimal := do
  (← b.trading.quantity.mul price).div (.ofWord (max b.trading.leverage 1))

/-- Follows the position that an order entered. -/
def follow (b : Bot) (direction : Direction) (price : Decimal) (ack : OrderAck) :
    ExchangeProgram (Result TradeOutcome) := do
  let entry := ack.averagePrice.getD price
  match b.stop.enter direction entry with
  | .error e => return (.error (.tracker e), b)
  | .ok stop =>
    let _ ← Program.ofExcept stop.stopPrice?
    return (.ok (.entered ack.orderId direction entry), { b with stop })

/-- Orders an entry if the balance covers its margin. -/
def enter (b : Bot) (direction : Direction) (price : Decimal) :
    ExchangeProgram (Result TradeOutcome) :=
  b.withReply .balance fun balance => do
    let required ← Program.ofExcept (b.requiredMargin price)
    if balance < required then return (.ok (.skipped (.margin balance required)), b)
    else b.withReply (.placeOrder (b.entryOrder direction)) (b.follow direction price)

/-- Orders the exit of the position that is being followed. -/
def exit (b : Bot) (reason : ExitReason) : ExchangeProgram (Result TradeOutcome) :=
  match b.stop.direction? with
  | none => return (.ok (.skipped .notOpen), b)
  | some direction => b.withReply (.placeOrder (b.exitOrder direction)) fun ack =>
      return (.ok (.exited ack.orderId reason), { b with stop := b.stop.reset })

/-- Moves the trailing stop to a price, if a position is open. -/
def hold (b : Bot) (price : Decimal) : Except BotError TradeOutcome × Bot :=
  if b.stop.isOpen then
    match b.stop.observe price with
    | .ok stop => (.ok .held, { b with stop })
    | .error e => (.error (.tracker e), b)
  else (.ok .held, b)

def act (b : Bot) (price : Decimal) : Decision → ExchangeProgram (Result TradeOutcome)
  | .enter direction => b.enter direction price
  | .exit reason => b.exit reason
  | .hold => return b.hold price

/-- Acts on the pending decision, which is used up. -/
def execute (b : Bot) : ExchangeProgram (Result TradeOutcome) :=
  match b.pending with
  | none => return (.ok (.skipped .noDecision), b)
  | some (decision, price) => { b with pending := none }.act price decision

/-- One full cycle: candles, price, decision, action. -/
def tick (b : Bot) : ExchangeProgram (Result TradeOutcome) :=
  if b.running then
    b.withReply (.candles b.symbol .daily b.trading.dailyLookback) fun daily =>
    b.withReply (.candles b.symbol .weekly b.trading.weeklyLookback) fun weekly =>
    b.withReply (.price b.symbol) fun price => do
      let snapshot ← Program.ofExcept (b.pipeline.snapshot daily weekly)
      let (_, decided) ← Program.ofExcept (b.process snapshot price)
      decided.execute
  else return (.ok (.skipped .botStopped), b)

end Bot

end FuturesDesk
