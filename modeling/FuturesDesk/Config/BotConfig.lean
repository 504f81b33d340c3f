import FuturesDesk.Bot.Params

/-! One bot as a configuration file describes it. -/
namespace FuturesDesk

structure BotConfig where
  symbol : String
  direction : Direction
  leverage : UInt32
  quantity : Decimal
  trailingStopPercent : Decimal
  tickIntervalSecs : Option Nat
  dailyLookback : Option Nat
  weeklyLookback : Option Nat
  indicators : List String
  entryConditions : List IndicatorComparison
  exitConditions : List IndicatorComparison

namespace BotConfig

def defaultIndicators : List String := Pipeline.standard.names

def fieldNames : List String :=
  ["symbol", "direction", "leverage", "quantity", "trailing_stop_percent", "tick_interval_secs",
    "daily_lookback", "weekly_lookback", "indicators", "entry_conditions", "exit_conditions"]

def read? {V : Type} (d : Dialect V) (value : V) : Option BotConfig := do
  let r ← d.record? fieldNames value
  let count? (v : V) : Option (Option Nat) := d.nullable? (d.unsigned? 64) v
  let conditions? (v : V) : Option (List IndicatorComparison) :=
    d.list? (IndicatorComparison.read? d) v
  return {
    symbol := ← r.required "symbol" d.string?
    direction := ← r.required "direction" (Direction.read? d)
    leverage := UInt32.ofNat (← r.required "leverage" (d.unsigned? 32))
    quantity := ← r.required "quantity" d.decimal?
    trailingStopPercent := ← r.required "trailing_stop_percent" d.decimal?
    tickIntervalSecs := ← r.withDefault "tick_interval_secs" none count?
    dailyLookback := ← r.withDefault "daily_lookback" none count?
    weeklyLookback := ← r.withDefault "weekly_lookback" none count?
    indicators := ← r.withDefault "indicators" defaultIndicators (d.list? d.string?)
    entryConditions := ← r.withDefault "entry_conditions" [] conditions?
    exitConditions := ← r.withDefault "exit_conditions" [] conditions? }

def trading (c : BotConfig) : TradingConfig :=
  let default : TradingConfig :=
    { symbol := c.symbol, leverage := c.leverage, quantity := c.quantity }
  { default with
    tickIntervalSecs := c.tickIntervalSecs.getD default.tickIntervalSecs
    dailyLookback := c.dailyLookback.getD default.dailyLookback
    weeklyLookback := c.weeklyLookback.getD default.weeklyLookback }

def pipeline (c : BotConfig) : Except (List String) Pipeline := Pipeline.ofNames c.indicators

def stop (c : BotConfig) : Except TrackerError TrailingStop :=
  TrailingStop.ofPercent c.trailingStopPercent

/-- The bot's parts as far as the configuration gives them, on a given exchange. -/
def draft (c : BotConfig) : BotDraft where
  hasExchange := true
  direction := some c.direction
  pipeline := c.pipeline.toOption
  stop := c.stop.toOption
  trading := some c.trading
  entry := c.entryConditions.map (·.toCondition)
  exit := c.exitConditions.map (·.toCondition)

/-- Problems with the indicator names and the percentage, which leave parts out. -/
def partViolations (c : BotConfig) : List Violation :=
  (match c.pipeline with
    | .error unknown => unknown.map .unknownIndicator
    | .ok _ => [])
    ++ match c.stop with
      | .error _ => [.percentOutOfRange c.trailingStopPercent]
      | .ok _ => []

/-- The bot's parameters. A part that is missing was explained by what is wrong with it. -/
def toParams (c : BotConfig) : Except ConfigurationError BotParams :=
  match c.draft.build with
  | .ok params =>
    if c.partViolations.isEmpty then .ok params else .error ⟨c.partViolations⟩
  | .error e => .error ⟨c.partViolations ++ e.violations.filter fun v => ¬ v.isMissingPart⟩

end BotConfig

end FuturesDesk
