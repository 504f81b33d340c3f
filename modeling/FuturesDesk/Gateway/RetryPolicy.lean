import FuturesDesk.Dialect

/-! How often a call is tried and how long it waits in between: twice as long after every failure,
up to a maximum, plus up to half of that at random. Delays are 64-bit milliseconds and saturate. -/
namespace FuturesDesk

structure RetryPolicy where
  /-- Tries in all, the first one included. -/
  maxAttempts : Nat := 3
  baseDelayMs : UInt64 := 250
  maxDelayMs : UInt64 := 5000
  deriving DecidableEq, Repr

namespace RetryPolicy

/-- One try and no more. -/
def noRetry : RetryPolicy := { maxAttempts := 1 }

def read? {V : Type} (d : Dialect V) (value : V) : Option RetryPolicy := do
  let default : RetryPolicy := {}
  let word? (v : V) : Option UInt64 := (d.unsigned? 64 v).map UInt64.ofNat
  let r ← d.record? ["max_attempts", "base_delay_ms", "max_delay_ms"] value
  return {
    maxAttempts := ← r.withDefault "max_attempts" default.maxAttempts (d.unsigned? 32)
    baseDelayMs := ← r.withDefault "base_delay_ms" default.baseDelayMs word?
    maxDelayMs := ← r.withDefault "max_delay_ms" default.maxDelayMs word? }

/-- The product, or the largest word. -/
def saturatingMul (a b : UInt64) : UInt64 :=
  if a.toNat * b.toNat < UInt64.size then a * b else UInt64.ofNat (UInt64.size - 1)

/-- The sum, or the largest word. -/
def saturatingAdd (a b : UInt64) : UInt64 :=
  if a.toNat + b.toNat < UInt64.size then a + b else UInt64.ofNat (UInt64.size - 1)

/-- The delay after a failed attempt, counted from one, before anything random. The doubling stops
after sixteen times. -/
def backoff (p : RetryPolicy) (attempt : Nat) : UInt64 :=
  let exponent := Nat.min (attempt - 1) 16
  min (saturatingMul p.baseDelayMs (UInt64.ofNat (twoTo exponent))) p.maxDelayMs

/-- The largest random part of a delay. -/
def jitterBound (p : RetryPolicy) (attempt : Nat) : UInt64 :=
  if 1 < p.backoff attempt then p.backoff attempt / 2 else 0

/-- The delay after a failed attempt with a random part. -/
def delay (p : RetryPolicy) (attempt : Nat) (jitter : UInt64) : UInt64 :=
  min (saturatingAdd (p.backoff attempt) jitter) p.maxDelayMs

end RetryPolicy

end FuturesDesk
