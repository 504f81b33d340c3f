import FuturesDesk.Decimal.Basic
import FuturesDesk.Gateway.Error
import FuturesDesk.Market.Candle

/-! What can be wrong with a configuration. All problems of a configuration are collected before it
is refused. -/
namespace FuturesDesk

/-- The parts of which a bot is put together. -/
inductive BotPart where
  | exchange
  | direction
  | indicators
  | trailingStop
  | trading
  deriving DecidableEq, Repr

def BotPart.label : BotPart → String
  | exchange => "exchange service"
  | direction => "direction"
  | indicators => "indicator calculator"
  | trailingStop => "trailing stop tracker"
  | trading => "trading config"

inductive Violation where
  | missingPart (part : BotPart)
  | blankSymbol
  | leverageOutOfRange (leverage : UInt32)
  | quantityNotPositive (quantity : Decimal)
  | noTickInterval
  | noLookback
  | noEntryConditions
  | noExitConditions
  | uncomputedIndicator (condition : String) (timeframe : Timeframe) (indicator : String)
  | unknownIndicator (name : String)
  | percentOutOfRange (percent : Decimal)
  | noRetryAttempts
  | noFailureThreshold
  | noRefill (endpoint : EndpointClass)
  | noBurst (endpoint : EndpointClass)
  | missingCredentials
  | noBots
  /-- A problem in the words of whoever found it. -/
  | stated (text : String)
  deriving DecidableEq

namespace Violation

def message : Violation → String
  | missingPart part => part.label ++ " is required"
  | blankSymbol => "symbol must not be empty"
  | leverageOutOfRange n => "leverage must be in 1..=125, got " ++ toString n.toNat
  | quantityNotPositive q => "quantity must be positive, got " ++ q.toText
  | noTickInterval => "tick interval must be at least 1 second"
  | noLookback => "candle lookbacks must be positive"
  | noEntryConditions => "entry conditions must not be empty"
  | noExitConditions => "exit conditions must not be empty"
  | uncomputedIndicator condition t indicator =>
    "condition '" ++ condition ++ "' reads " ++ t.name ++ " " ++ indicator
      ++ " which is not computed"
  | unknownIndicator name => "unknown indicator '" ++ name ++ "'"
  | percentOutOfRange p => "trailing stop percent must be between 0 and 100, got " ++ p.toText
  | noRetryAttempts => "retry max_attempts must be at least 1"
  | noFailureThreshold => "circuit breaker failure_threshold must be at least 1"
  | noRefill c => c.label ++ " rate limit per_second must be positive"
  | noBurst c => c.label ++ " rate limit burst must be positive"
  | missingCredentials => "exchange api_key and api_secret are required for live trading"
  | noBots => "at least one bot must be configured"
  | stated text => text

/-- Whether a part is absent that others may add later. -/
def isMissingPart : Violation → Bool
  | missingPart _ => true
  | _ => false

end Violation

/-- Every problem found in one configuration, in the order of the checks. -/
structure ConfigurationError where
  violations : List Violation
  deriving DecidableEq

namespace ConfigurationError

def message (e : ConfigurationError) : String :=
  "invalid configuration: " ++ "; ".intercalate (e.violations.map Violation.message)

/-- Refuses unless nothing was found. -/
def check (violations : List Violation) : Except ConfigurationError Unit :=
  if violations.isEmpty then .ok () else .error ⟨violations⟩

end ConfigurationError

end FuturesDesk
