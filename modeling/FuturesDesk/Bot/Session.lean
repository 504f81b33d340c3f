import FuturesDesk.Bot.Basic

/-! A bot on its own: a cycle at every tick until it is told to stop or an error needs an operator.
A bot that failed to start tries again at the next tick. -/
namespace FuturesDesk

/-- What a waiting bot can see. -/
inductive SessionEvent where
  | tick
  /-- The request to stop. -/
  | shutdown
  deriving DecidableEq, Repr

/-- The latest request to a bot whether to stop. -/
structure StopSignal where
  stop : Bool := false
  /-- Whether the bot has yet to look at the request. -/
  unseen : Bool := false
  /-- Whether nobody is left to send another one. -/
  closed : Bool := false
  deriving DecidableEq, Repr

namespace StopSignal

def send (s : StopSignal) (stop : Bool) : StopSignal :=
  if s.closed then s else { s with stop, unseen := true }

/-- What a bot sees when its tick is due. -/
def atTick (s : StopSignal) : SessionEvent := if s.stop then .shutdown else .tick

/-- What a bot that waits for its tick sees when it looks at the signal, if anything. -/
def whileWaiting? (s : StopSignal) : Option SessionEvent :=
  if (s.unseen && s.stop) || s.closed then some .shutdown else none

end StopSignal

namespace Bot

/-- What one tick does. Only a fatal error is given, and halts a bot that was running; every other
one leaves the bot to its next tick. -/
def cycle (b : Bot) : ExchangeProgram (Result Unit) := do
  match ← b.start with
  | (.error e, b) => return (if e.isFatal then .error e else .ok (), b)
  | (.ok (), b) =>
    match ← b.tick with
    | (.error e, b) => return if e.isFatal then (.error e, b.halt) else (.ok (), b)
    | (.ok _, b) => return (.ok (), b)

/-- How a session stands after some events. -/
inductive SessionState where
  | waiting (bot : Bot)
  /-- Ended, with the error that halted the bot, if it was not asked to stop. -/
  | ended (error : Option BotError) (bot : Bot)

/-- Takes one event; a session that has ended stays as it is. -/
def SessionState.next : SessionState → SessionEvent → ExchangeProgram SessionState
  | .ended error b, _ => return .ended error b
  | .waiting b, .shutdown => return .ended none b.halt
  | .waiting b, .tick => do
    match ← b.cycle with
    | (.ok (), b) => return .waiting b
    | (.error e, b) => return .ended (some e) b

/-- A session over the events that it sees in turn. -/
def session (b : Bot) (events : List SessionEvent) : ExchangeProgram SessionState :=
  events.foldlM SessionState.next (.waiting b)

end Bot

end FuturesDesk
