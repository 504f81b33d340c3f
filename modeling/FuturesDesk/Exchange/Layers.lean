import FuturesDesk.Exchange.Paper
import FuturesDesk.Gateway.Guarded

/-! The exchange that the bots of one desk share: a market, perhaps with simulated fills, perhaps
behind a guard. -/
namespace FuturesDesk

structure Layers where
  /-- Whether orders are filled on a paper account. -/
  paper : Bool
  /-- The retry policy of the guard, if there is one. -/
  guard : Option RetryPolicy
  /-- Whether the market fills a client's order id at most once. -/
  marketKnowsIds : Bool

namespace Layers

/-- What the layers ask of their surroundings. -/
inductive Step where
  | guard (step : Guarded.GuardStep)
  | account (step : Paper.AccountStep)
  | market (call : ExchangeCall)
  deriving DecidableEq

abbrev Step.Reply : Step → Type
  | guard s => s.Reply
  | account s => s.Reply
  | market c => c.Reply

abbrev Task (α : Type) : Type := Program Step Step.Reply α

/-- Whether a repeated order id fills at most once; a paper account sees to that itself. -/
def knowsIds (l : Layers) : Bool := l.paper || l.marketKnowsIds

def ofPaper : (s : Paper.Step) → Task s.Reply
  | .account s => Program.question (Step.account s)
  | .market c => Program.question (Step.market c)

/-- A call below the guard. -/
def unguarded (l : Layers) (c : ExchangeCall) : Task c.Reply :=
  if l.paper then (Paper.call c).expand ofPaper else Program.question (Step.market c)

def ofGuarded (l : Layers) : (s : Guarded.Step) → Task s.Reply
  | .guard s => Program.question (Step.guard s)
  | .forward c => l.unguarded c

def call (l : Layers) (c : ExchangeCall) : Task c.Reply :=
  match l.guard with
  | some policy => (Guarded.call policy l.knowsIds c).expand l.ofGuarded
  | none => l.unguarded c

/-- Carries out a whole program on the layers. -/
def carryOut {α : Type} (l : Layers) (p : ExchangeProgram α) : Task α := p.expand l.call

end Layers

end FuturesDesk
