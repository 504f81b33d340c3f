import FuturesDesk.Config.Violation
import FuturesDesk.Strategy.Condition
import FuturesDesk.Strategy.TrailingStop

/-! The rules of a bot: enter when every entry condition holds; leave on the trailing stop first,
then on the first exit condition that holds. -/
namespace FuturesDesk

inductive ExitReason where
  | trailingStop (stop : Decimal)
  | condition (name : String)
  deriving DecidableEq

def ExitReason.text : ExitReason → String
  | trailingStop stop => "trailing stop hit (stop " ++ stop.toText ++ ")"
  | condition name => "exit condition: " ++ name

inductive Decision where
  | hold
  | enter (direction : Direction)
  | exit (reason : ExitReason)
  deriving DecidableEq

structure Rules where
  entry : List Condition
  exit : List Condition
  direction : Direction

namespace Rules

def violations (entry exit : List Condition) : List Violation :=
  (if entry.isEmpty then [.noEntryConditions] else [])
    ++ if exit.isEmpty then [.noExitConditions] else []

/-- Rules need at least one condition of each kind. -/
def ofConditions (entry exit : List Condition) (direction : Direction) :
    Except ConfigurationError Rules := do
  ConfigurationError.check (violations entry exit)
  return ⟨entry, exit, direction⟩

/-- The first exit condition that holds. -/
def exitCondition? (r : Rules) (snapshot : Snapshot) : Option Condition :=
  r.exit.find? (·.holds snapshot)

def evaluate (r : Rules) (snapshot : Snapshot) (stop : TrailingStop) (price : Decimal) :
    Except Decimal.Fault Decision := do
  if stop.isOpen then
    match ← stop.triggeredStop? price with
    | some level => return .exit (.trailingStop level)
    | none =>
      match r.exitCondition? snapshot with
      | some c => return .exit (.condition c.name)
      | none => return .hold
  else if r.entry.all (·.holds snapshot) then return .enter r.direction
  else return .hold

def dump (r : Rules) : String :=
  "RuleEvaluator " ++ Text.braced ("entry_conditions: " ++ Text.bracketed (r.entry.map (·.dump))
    ++ ", exit_conditions: " ++ Text.bracketed (r.exit.map (·.dump))
    ++ ", direction: " ++ r.direction.debugName)

end Rules

end FuturesDesk
