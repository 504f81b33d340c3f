import FuturesDesk.Config.Violation
import FuturesDesk.Dialect

/-! Rate budgets: one limiter per endpoint class, a bucket of tokens that is filled at a steady rate
up to a burst, and what a call does when its bucket is empty. Bucket times are in nanoseconds. -/
namespace FuturesDesk

inductive RateLimitPolicy where
  /-- Wait for a token, for so many milliseconds at most. -/
  | block (timeoutMs : Nat)
  | failFast
  deriving DecidableEq, Repr

namespace RateLimitPolicy

/-- A record whose field `mode` tells whether it has the other one; taken as it is written. -/
def read? {V : Type} (d : Dialect V) (value : V) : Option RateLimitPolicy := do
  let r ← d.record? ["mode", "timeout_ms"] (d.unconverted value)
  match ← r.required "mode" d.string? with
  | "block" => return .block (← r.required "timeout_ms" (d.unsigned? 64))
  | "fail_fast" =>
    if r.positional ∧ (r.field? "timeout_ms").isSome then failure else return .failFast
  | _ => failure

end RateLimitPolicy

/-- The shape of a bucket. -/
structure BucketConfig where
  perSecond : Nat
  burst : Nat
  deriving DecidableEq, Repr

namespace BucketConfig

def read? {V : Type} (d : Dialect V) (value : V) : Option BucketConfig := do
  let r ← d.record? ["per_second", "burst"] value
  return {
    perSecond := ← r.required "per_second" (d.unsigned? 32)
    burst := ← r.required "burst" (d.unsigned? 32) }

/-- What keeps a bucket of a class from working; the rate comes first. -/
def violation? (endpoint : EndpointClass) (b : BucketConfig) : Option Violation :=
  if b.perSecond = 0 then some (.noRefill endpoint)
  else if b.burst = 0 then some (.noBurst endpoint)
  else none

/-- Nanoseconds from one token to the next. -/
def interval (b : BucketConfig) : Nat := 1_000_000_000 / b.perSecond

end BucketConfig

structure RateLimitSettings where
  marketData : BucketConfig := ⟨20, 40⟩
  account : BucketConfig := ⟨5, 10⟩
  order : BucketConfig := ⟨10, 20⟩
  policy : RateLimitPolicy := .block 2000
  deriving DecidableEq, Repr

namespace RateLimitSettings

def bucket (s : RateLimitSettings) : EndpointClass → BucketConfig
  | .marketData => s.marketData
  | .account => s.account
  | .order => s.order

def violations (s : RateLimitSettings) : List Violation :=
  EndpointClass.all.filterMap fun c => (s.bucket c).violation? c

def read? {V : Type} (d : Dialect V) (value : V) : Option RateLimitSettings := do
  let default : RateLimitSettings := {}
  let r ← d.record? ["market_data", "account", "order", "policy"] value
  return {
    marketData := ← r.withDefault "market_data" default.marketData (BucketConfig.read? d)
    account := ← r.withDefault "account" default.account (BucketConfig.read? d)
    order := ← r.withDefault "order" default.order (BucketConfig.read? d)
    policy := ← r.withDefault "policy" default.policy (RateLimitPolicy.read? d) }

end RateLimitSettings

/-- A rate limiter of one endpoint class. What it answers depends on the time and on what it was
asked before. -/
structure Limiter where
  /-- What a limiter remembers. -/
  State : Type
  start : State
  /-- Asks for a token at a time. -/
  ask : BucketConfig → State → Nat → Bool × State

/-- A bucket by the time at which a full one would give its next token; none before first use. -/
structure TokenBucket where
  arrival : Option Nat := none
  deriving DecidableEq, Repr

namespace TokenBucket

/-- The earliest time at which the bucket gives a token. -/
def earliest (c : BucketConfig) (b : TokenBucket) (now : Nat) : Nat :=
  b.arrival.getD (now + c.interval) - c.interval * c.burst

/-- Takes a token, if there is one. -/
def take? (c : BucketConfig) (b : TokenBucket) (now : Nat) : Option TokenBucket :=
  if now < b.earliest c now then none
  else some ⟨some (Nat.max (b.arrival.getD (now + c.interval)) now + c.interval)⟩

/-- A bucket as a limiter: one that has no token stays as it is. -/
def limiter : Limiter where
  State := TokenBucket
  start := {}
  ask c b now :=
    match b.take? c now with
    | some taken => (true, taken)
    | none => (false, b)

end TokenBucket

/-- The limiters of the three classes. -/
structure RateBudget (L : Limiter) where
  settings : RateLimitSettings
  marketData : L.State := L.start
  account : L.State := L.start
  order : L.State := L.start

namespace RateBudget

/-- Full buckets. -/
def ofSettings (s : RateLimitSettings) :
    Except ConfigurationError (RateBudget TokenBucket.limiter) := do
  ConfigurationError.check s.violations
  return { settings := s }

section
variable {L : Limiter}

def bucket (b : RateBudget L) : EndpointClass → L.State
  | .marketData => b.marketData
  | .account => b.account
  | .order => b.order

def setBucket (b : RateBudget L) (t : L.State) : EndpointClass → RateBudget L
  | .marketData => { b with marketData := t }
  | .account => { b with account := t }
  | .order => { b with order := t }

theorem bucket_setBucket (b : RateBudget L) (t : L.State) (c other : EndpointClass) :
    (b.setBucket t c).bucket other = if c = other then t else b.bucket other := by
  cases c <;> cases other <;> rfl

theorem setBucket_bucket (b : RateBudget L) (c : EndpointClass) :
    b.setBucket (b.bucket c) c = b := by
  cases c <;> rfl

@[simp] theorem setBucket_settings (b : RateBudget L) (t : L.State) (c : EndpointClass) :
    (b.setBucket t c).settings = b.settings := by
  cases c <;> rfl

/-- Asks for a token of a class at a time. -/
def ask (b : RateBudget L) (endpoint : EndpointClass) (now : Nat) : Bool × RateBudget L :=
  let answer := L.ask (b.settings.bucket endpoint) (b.bucket endpoint) now
  (answer.1, b.setBucket answer.2 endpoint)

end

/-- The earliest time at which the bucket of a class gives a token. -/
def ready (b : RateBudget TokenBucket.limiter) (endpoint : EndpointClass) (now : Nat) : Nat :=
  TokenBucket.earliest (b.settings.bucket endpoint) (b.bucket endpoint) now

/-- Asks for a token at a time and waits for it as the policy allows. Gives whether there was one
and the time afterwards. -/
def acquire (b : RateBudget TokenBucket.limiter) (endpoint : EndpointClass) (now : Nat) :
    Except GatewayError Unit × RateBudget TokenBucket.limiter × Nat :=
  match b.ask endpoint now with
  | (true, b) => (.ok (), b, now)
  | (false, b) =>
    match b.settings.policy with
    | .failFast => (.error (.rateLimited endpoint), b, now)
    | .block timeoutMs =>
      let ready := b.ready endpoint now
      let deadline := now + timeoutMs * 1_000_000
      if deadline < ready then (.error (.rateLimited endpoint), b, deadline)
      else
        match b.ask endpoint ready with
        | (true, b) => (.ok (), b, ready)
        | (false, b) => (.error (.rateLimited endpoint), b, deadline)

/-- Asks for tokens one after another. -/
def acquireAll (b : RateBudget TokenBucket.limiter) (now : Nat) :
    List EndpointClass → List (Except GatewayError Unit)
  | [] => []
  | c :: rest =>
    let (result, b, now) := b.acquire c now
    result :: b.acquireAll now rest

end RateBudget

end FuturesDesk
