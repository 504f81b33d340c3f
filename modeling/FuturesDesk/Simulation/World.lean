import FuturesDesk.Exchange.Layers
import FuturesDesk.Gateway.Guard
import FuturesDesk.Simulation.Market

/-! A desk over a scripted market, with a clock in milliseconds that moves only while somebody
waits. Token buckets do not refill here: who finds one empty waits in vain. -/
namespace FuturesDesk

structure World where
  now : Nat := 0
  market : ScriptedMarket
  account : PaperAccount
  guard : BucketGuard

namespace World

/-- How long a step takes before it has its effect. -/
def delay (w : World) : Layers.Step → Nat
  | .guard (.takeToken c) =>
    if (w.guard.budget.ask c 0).1 then 0
    else
      match w.guard.settings.rateLimits.policy with
      | .block timeoutMs => timeoutMs
      | .failFast => 0
  | .guard (.pause attempt) => (w.guard.settings.retry.backoff attempt).toNat
  | .guard _ => 0
  | .account _ => 0
  | .market c => w.market.latency.get c

/-- The effect of a step at the present time. -/
def perform (w : World) : (s : Layers.Step) → s.Reply × World
  | .guard s =>
    let (reply, guard) := w.guard.apply w.now 0 s
    (reply, { w with guard })
  | .account s =>
    let (reply, account) := s.apply w.account
    (reply, { w with account })
  | .market c =>
    let (reply, market) := w.market.answer c
    (reply, { w with market })

/-- Takes a step that nobody else can come between. -/
def answer (s : Layers.Step) (w : World) : s.Reply × World :=
  { w with now := w.now + w.delay s }.perform s

/-- Runs a task on its own. -/
def run {α : Type} (w : World) (t : Layers.Task α) : Except Decimal.Fault α × World :=
  Program.run answer t w

end World

/-- A task that was begun: over, or asleep before a step. -/
inductive Fiber (α : Type) : Type where
  | over (result : Except Decimal.Fault α)
  | asleep (wake : Nat) (step : Layers.Step) (next : step.Reply → Layers.Task α)

namespace Fiber

variable {α : Type}

/-- Runs a task up to its next wait. -/
def advance : Layers.Task α → World → Fiber α × World
  | .done a, w => (.over (.ok a), w)
  | .fault f, w => (.over (.error f), w)
  | .ask step next, w =>
    if w.delay step = 0 then
      let (reply, w) := w.perform step
      advance (next reply) w
    else (.asleep (w.now + w.delay step) step next, w)

def wake? : Fiber α → Option Nat
  | .over _ => none
  | .asleep wake _ _ => some wake

/-- Goes on if the time has come. -/
def poll (f : Fiber α) (w : World) : Fiber α × World :=
  match f with
  | .over result => (.over result, w)
  | .asleep wake step next =>
    if wake ≤ w.now then
      let (reply, w) := w.perform step
      advance (next reply) w
    else (.asleep wake step next, w)

end Fiber

namespace World

variable {α β : Type}

/-- Polls two fibers, either first. -/
def pollBoth (leftFirst : Bool) (a : Fiber α) (b : Fiber β) (w : World) :
    Fiber α × Fiber β × World :=
  if leftFirst then
    let (a, w) := a.poll w
    let (b, w) := b.poll w
    (a, b, w)
  else
    let (b, w) := b.poll w
    let (a, w) := a.poll w
    (a, b, w)

/-- Polls two fibers whenever one wakes, taking turns in who comes first, until both are over or one
faults. Each round passes at least one wait, so as many rounds as there can be waits suffice. -/
def join (leftFirst : Bool) (a : Fiber α) (b : Fiber β) (w : World) :
    (rounds : Nat) → Option (Except Decimal.Fault (α × β) × World)
  | 0 => none
  | rounds + 1 =>
    match a, b with
    | .over (.error f), _ => some (.error f, w)
    | _, .over (.error f) => some (.error f, w)
    | .over (.ok x), .over (.ok y) => some (.ok (x, y), w)
    | a, b =>
      let wake := ([a.wake?, b.wake?].filterMap id).min?.getD w.now
      let (a, b, w) := pollBoth leftFirst a b { w with now := max w.now wake }
      join (!leftFirst) a b w rounds

/-- The waits that one call on the layers may pass: three for each attempt. -/
def waitBound (w : World) : Nat := 3 * w.guard.settings.retry.maxAttempts + 3

/-- Runs two tasks side by side, the first one first. -/
def runBoth (w : World) (a : Layers.Task α) (b : Layers.Task β) :
    Option (Except Decimal.Fault (α × β) × World) :=
  let rounds := 2 * w.waitBound + 1
  let (a, w) := Fiber.advance a w
  let (b, w) := Fiber.advance b w
  w.join false a b rounds

end World

end FuturesDesk
