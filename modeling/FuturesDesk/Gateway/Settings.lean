import FuturesDesk.Gateway.Breaker
import FuturesDesk.Gateway.RateBudget
import FuturesDesk.Gateway.RetryPolicy

/-! The settings of the guarded access to an exchange. -/
namespace FuturesDesk

structure GatewaySettings where
  rateLimits : RateLimitSettings := {}
  breaker : BreakerConfig := {}
  retry : RetryPolicy := {}
  deriving DecidableEq, Repr

namespace GatewaySettings

def read? {V : Type} (d : Dialect V) (value : V) : Option GatewaySettings := do
  let default : GatewaySettings := {}
  let r ← d.record? ["rate_limits", "circuit_breaker", "retry"] value
  return {
    rateLimits := ← r.withDefault "rate_limits" default.rateLimits (RateLimitSettings.read? d)
    breaker := ← r.withDefault "circuit_breaker" default.breaker (BreakerConfig.read? d)
    retry := ← r.withDefault "retry" default.retry (RetryPolicy.read? d) }

def violations (s : GatewaySettings) : List Violation :=
  (if s.retry.maxAttempts = 0 then [.noRetryAttempts] else [])
    ++ (if s.breaker.failureThreshold = 0 then [.noFailureThreshold] else [])
    ++ s.rateLimits.violations

def check (s : GatewaySettings) : Except ConfigurationError Unit :=
  ConfigurationError.check s.violations

end GatewaySettings

end FuturesDesk
