import FuturesDesk.Config.Violation
import FuturesDesk.Strategy.TrailingStop

/-! What can stop a bot's operation. -/
namespace FuturesDesk

inductive BotError where
  | configuration (error : ConfigurationError)
  | gateway (error : GatewayError)
  | tracker (error : TrackerError)
  deriving DecidableEq

namespace BotError

def message : BotError → String
  | configuration e => e.message
  | gateway e => "gateway: " ++ e.message
  | tracker e => "trailing stop: " ++ e.message

/-- Whether an operator has to step in; a bot halts on such errors. -/
def isFatal : BotError → Bool
  | configuration _ => true
  | gateway e => e.isFatal
  | tracker _ => false

end BotError

end FuturesDesk
