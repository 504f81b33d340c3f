import FuturesDesk.Simulation.World

/-! A whole desk for a dry run: a scripted market, perhaps with a paper account, perhaps behind a
guard. -/
namespace FuturesDesk

structure Desk where
  layers : Layers
  world : World

namespace Desk

/-- A desk with a paper account if a balance is given, and a guard if settings are. -/
def build (market : ScriptedMarket) (balance : Option Decimal) (settings : Option GatewaySettings) :
    Except ConfigurationError Desk := do
  let guard ← Guard.ofSettings (settings.getD {})
  return {
    layers := {
      paper := balance.isSome
      guard := settings.map (·.retry)
      marketKnowsIds := market.knowsIds }
    world := { market, account := { wallet := balance.getD .zero }, guard } }

/-- The desk with another script for its market. -/
def setMarket (d : Desk) (market : ScriptedMarket) : Desk where
  layers := { d.layers with marketKnowsIds := market.knowsIds }
  world := { d.world with market }

def advance (d : Desk) (ms : Nat) : Desk :=
  { d with world := { d.world with now := d.world.now + ms } }

/-- Runs a task to its end. -/
def run {α : Type} (d : Desk) (t : Layers.Task α) : Except Decimal.Fault (α × Desk) :=
  match d.world.run t with
  | (.ok a, world) => .ok (a, { d with world })
  | (.error f, _) => .error f

/-- The calls that reached the market since they were last taken. -/
def takeLog (d : Desk) : List ExchangeCall × Desk :=
  let (calls, market) := d.world.market.takeLog
  (calls, { d with world := { d.world with market } })

end Desk

end FuturesDesk
