import FuturesDesk.Gateway.Guarded

/-! The state that guarded calls share: a circuit breaker and a rate limiter for each endpoint
class, and the ids given to orders. -/
namespace FuturesDesk

/-- The breakers of the three classes. -/
structure Breakers where
  marketData : Breaker := {}
  account : Breaker := {}
  order : Breaker := {}
  deriving DecidableEq

namespace Breakers

def get (b : Breakers) : EndpointClass → Breaker
  | .marketData => b.marketData
  | .account => b.account
  | .order => b.order

def set (b : Breakers) (breaker : Breaker) : EndpointClass → Breakers
  | .marketData => { b with marketData := breaker }
  | .account => { b with account := breaker }
  | .order => { b with order := breaker }

theorem get_set (b : Breakers) (breaker : Breaker) (c other : EndpointClass) :
    (b.set breaker c).get other = if c = other then breaker else b.get other := by
  cases c <;> cases other <;> rfl

end Breakers

/-- A source of ids for orders. What it gives depends on the time and on what it gave before. -/
structure IdSource where
  /-- What a source remembers. -/
  State : Type
  start : State
  fresh : State → Nat → String × State

namespace IdSource

/-- An id of thirty-two hexadecimal digits for a number. -/
def numbered (n : Nat) : String :=
  let digits := Nat.toDigits 16 n
  String.ofList (List.replicate (32 - digits.length) '0' ++ digits)

/-- Gives the numbers one after another. -/
def counter : IdSource where
  State := Nat
  start := 0
  fresh n _ := (numbered n, n + 1)

end IdSource

structure Guard (L : Limiter) (I : IdSource) where
  settings : GatewaySettings
  budget : RateBudget L
  breakers : Breakers := {}
  ids : I.State := I.start

/-- A guard with token buckets and numbered orders. -/
abbrev BucketGuard : Type := Guard TokenBucket.limiter IdSource.counter

namespace Guard

open Guarded

/-- A guard over settings that pass all checks. -/
def ofSettings (s : GatewaySettings) : Except ConfigurationError BucketGuard := do
  s.check
  return { settings := s, budget := ← RateBudget.ofSettings s.rateLimits }

variable {L : Limiter} {I : IdSource}

def setBreaker (g : Guard L I) (c : EndpointClass) (b : Breaker) : Guard L I :=
  { g with breakers := g.breakers.set b c }

/-- One step at a time in milliseconds and at a time in nanoseconds on the clock of the buckets.
Waits are the caller's: a token is there or it is not. -/
def apply (now bucketNow : Nat) : (s : GuardStep) → Guard L I → s.Reply × Guard L I
  | .acquire c, g =>
    let (b, admission) := (g.breakers.get c).tryAcquire g.settings.breaker now
    (admission, g.setBreaker c b)
  | .takeToken c, g =>
    match g.budget.ask c bucketNow with
    | (true, budget) => (.ok (), { g with budget })
    | (false, budget) => (.error (.rateLimited c), { g with budget })
  | .report c a failure, g =>
    ((), g.setBreaker c ((g.breakers.get c).record g.settings.breaker now a failure))
  | .release c a, g => ((), g.setBreaker c ((g.breakers.get c).releaseProbe a))
  | .pause _, g => ((), g)
  | .freshId, g =>
    let (id, ids) := I.fresh g.ids bucketNow
    (id, { g with ids })

end Guard

end FuturesDesk
