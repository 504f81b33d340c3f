import FuturesDesk.Strategy.Rules

/-! What a bot is made of, and the checks that put it together. -/
namespace FuturesDesk

/-- Market, size and cadence of one bot. -/
structure TradingConfig where
  symbol : String
  leverage : UInt32
  /-- The size of an order in units of the base asset. -/
  quantity : Decimal
  tickIntervalSecs : Nat := 60
  dailyLookback : Nat := 200
  weeklyLookback : Nat := 60
  deriving DecidableEq

namespace TradingConfig

def violations (t : TradingConfig) : List Violation :=
  (if Text.isBlankText t.symbol then [.blankSymbol] else [])
    ++ (if 1 ≤ t.leverage ∧ t.leverage ≤ 125 then [] else [.leverageOutOfRange t.leverage])
    ++ (if t.quantity ≤ .zero then [.quantityNotPositive t.quantity] else [])
    ++ (if t.tickIntervalSecs = 0 then [.noTickInterval] else [])
    ++ (if t.dailyLookback = 0 ∨ t.weeklyLookback = 0 then [.noLookback] else [])

def dump (t : TradingConfig) : String :=
  "TradingConfig " ++ Text.braced ("symbol: " ++ Text.quoted t.symbol
    ++ ", leverage: " ++ toString t.leverage.toNat ++ ", quantity: " ++ t.quantity.toText
    ++ ", tick_interval_secs: " ++ toString t.tickIntervalSecs
    ++ ", daily_lookback: " ++ toString t.dailyLookback
    ++ ", weekly_lookback: " ++ toString t.weeklyLookback)

end TradingConfig

namespace TrailingStop

def dump (s : TrailingStop) : String :=
  "TrailingStopTracker " ++ Text.braced ("state: TrailingStopState " ++ Text.braced (
    "position: " ++ (match s.direction? with
      | none => "None"
      | some d => "Some(" ++ d.debugName ++ ")")
    ++ ", entry_price: " ++ s.entry.toText ++ ", extreme_price: " ++ s.extreme.toText
    ++ ", trailing_stop_percent: " ++ s.percent.toText))

end TrailingStop

structure BotParams where
  pipeline : Pipeline
  rules : Rules
  stop : TrailingStop
  trading : TradingConfig

namespace BotParams

/-- The parameters without the exchange. -/
def dump (p : BotParams) : String :=
  "BotParams " ++ Text.braced ("pipeline: " ++ p.pipeline.dump ++ ", evaluator: " ++ p.rules.dump
    ++ ", tracker: " ++ p.stop.dump ++ ", trading: " ++ p.trading.dump ++ ", ..")

end BotParams

/-- The parts of a bot as far as they were given. -/
structure BotDraft where
  /-- Whether the bot has an exchange to trade on. -/
  hasExchange : Bool := false
  direction : Option Direction := none
  pipeline : Option Pipeline := none
  stop : Option TrailingStop := none
  trading : Option TradingConfig := none
  entry : List Condition := []
  exit : List Condition := []

namespace BotDraft

def missing {α : Type} (part : BotPart) (given : Option α) : List Violation :=
  if given.isNone then [.missingPart part] else []

/-- The references of a condition to readings that a pipeline does not compute. -/
def uncomputed (p : Pipeline) (c : Condition) : List Violation :=
  (c.references.filter fun r => ¬ p.contains r.2).map fun (t, indicator) =>
    .uncomputedIndicator c.name t indicator

def violations (d : BotDraft) : List Violation :=
  (if d.hasExchange then [] else [.missingPart .exchange])
    ++ missing .direction d.direction
    ++ missing .indicators d.pipeline
    ++ missing .trailingStop d.stop
    ++ (match d.trading with
      | some t => t.violations
      | none => [.missingPart .trading])
    ++ Rules.violations d.entry d.exit
    ++ (match d.pipeline with
      | some p => (d.entry ++ d.exit).flatMap (uncomputed p)
      | none => [])

/-- The bot's parameters, if all parts are there and fit. -/
def build (d : BotDraft) : Except ConfigurationError BotParams :=
  let found := d.violations
  match d.direction, d.pipeline, d.stop, d.trading with
  | some direction, some pipeline, some stop, some trading =>
    if found.isEmpty then .ok ⟨pipeline, ⟨d.entry, d.exit, direction⟩, stop, trading⟩
    else .error ⟨found⟩
  | _, _, _, _ => .error ⟨found⟩

end BotDraft

end FuturesDesk
