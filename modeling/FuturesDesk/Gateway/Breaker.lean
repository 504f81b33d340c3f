import FuturesDesk.Dialect
import FuturesDesk.Gateway.Error

/-! A circuit breaker for one endpoint class. Enough outages within a window open the circuit; after
a cooldown one trial call is admitted, and its outcome closes the circuit or opens it again. Every
trip starts a new epoch, and reports on calls admitted in an older epoch are ignored. Times are in
milliseconds. -/
namespace FuturesDesk

structure BreakerConfig where
  /-- Outages within the window that open the circuit. -/
  failureThreshold : Nat := 5
  windowSecs : Nat := 60
  /-- How long the circuit stays open before a trial call. -/
  cooldownSecs : Nat := 30
  deriving DecidableEq, Repr

namespace BreakerConfig

def window (c : BreakerConfig) : Nat := c.windowSecs * 1000

def cooldown (c : BreakerConfig) : Nat := c.cooldownSecs * 1000

def read? {V : Type} (d : Dialect V) (value : V) : Option BreakerConfig := do
  let default : BreakerConfig := {}
  let r ← d.record? ["failure_threshold", "window_secs", "cooldown_secs"] value
  return {
    failureThreshold :=
      ← r.withDefault "failure_threshold" default.failureThreshold (d.unsigned? 32)
    windowSecs := ← r.withDefault "window_secs" default.windowSecs (d.unsigned? 64)
    cooldownSecs := ← r.withDefault "cooldown_secs" default.cooldownSecs (d.unsigned? 64) }

end BreakerConfig

/-- The ticket of an admitted call, handed back with its outcome. -/
structure Admission where
  epoch : Nat
  deriving DecidableEq, Repr

namespace Breaker

inductive Phase where
  /-- Calls pass; the times of recent outages, oldest first. -/
  | closed (failures : List Nat)
  /-- Calls are refused since a time. -/
  | opened (since : Nat)
  /-- One trial call at a time passes; the time of the one under way, if any. -/
  | halfOpen (since : Nat) (probe : Option Nat)
  deriving DecidableEq, Repr

end Breaker

structure Breaker where
  phase : Breaker.Phase := .closed []
  epoch : Nat := 0
  totalOpens : Nat := 0
  deriving DecidableEq, Repr

namespace Breaker

def stateName (b : Breaker) : String :=
  match b.phase with
  | .closed _ => "closed"
  | .opened _ => "open"
  | .halfOpen _ _ => "half_open"

/-- Whether a cooldown has passed since a time. -/
def cooledDown (c : BreakerConfig) (now since : Nat) : Bool := c.cooldown ≤ now - since

/-- Admits a call or refuses it. A trial call that did not report within a cooldown has lost its
slot. -/
def tryAcquire (c : BreakerConfig) (now : Nat) (b : Breaker) : Breaker × Option Admission :=
  match b.phase with
  | .closed _ => (b, some ⟨b.epoch⟩)
  | .opened since =>
    if cooledDown c now since then
      ({ b with phase := .halfOpen since (some now) }, some ⟨b.epoch⟩)
    else (b, none)
  | .halfOpen since probe =>
    if probe.all (cooledDown c now) then
      ({ b with phase := .halfOpen since (some now) }, some ⟨b.epoch⟩)
    else (b, none)

/-- Opens the circuit and starts the next epoch. -/
def trip (now : Nat) (b : Breaker) : Breaker :=
  { phase := .opened now, epoch := b.epoch + 1, totalOpens := b.totalOpens + 1 }

/-- A call that answered closes a half-open circuit. -/
def recordSuccess (a : Admission) (b : Breaker) : Breaker :=
  if b.epoch ≠ a.epoch then b
  else
    match b.phase with
    | .halfOpen _ _ => { b with phase := .closed [] }
    | _ => b

/-- The outages within the window before `now`, with one at `now`. -/
def recentFailures (c : BreakerConfig) (now : Nat) (failures : List Nat) : List Nat :=
  (failures ++ [now]).dropWhile fun t => c.window < now - t

/-- An outage opens a half-open circuit, and a closed one when it reaches the threshold. -/
def recordFailure (c : BreakerConfig) (now : Nat) (a : Admission) (b : Breaker) : Breaker :=
  if b.epoch ≠ a.epoch then b
  else
    match b.phase with
    | .halfOpen _ _ => b.trip now
    | .closed failures =>
      let recent := recentFailures c now failures
      if c.failureThreshold ≤ recent.length then b.trip now
      else { b with phase := .closed recent }
    | .opened _ => b

/-- Gives a trial slot back without judging the endpoint. -/
def releaseProbe (a : Admission) (b : Breaker) : Breaker :=
  if b.epoch ≠ a.epoch then b
  else
    match b.phase with
    | .halfOpen since _ => { b with phase := .halfOpen since none }
    | _ => b

/-- Feeds back how an admitted call ended: outages count, refusals for want of budget or by another
circuit judge nothing, every other answer shows that the endpoint works. -/
def record (c : BreakerConfig) (now : Nat) (a : Admission) (failure : Option GatewayError)
    (b : Breaker) : Breaker :=
  match failure with
  | some (.transient _) => b.recordFailure c now a
  | some (.rateLimited _) | some (.circuitOpen _) => b.releaseProbe a
  | _ => b.recordSuccess a

end Breaker

end FuturesDesk
