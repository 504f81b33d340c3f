/-! The three classes of exchange endpoints and the ways in which a call on one of them fails. -/
namespace FuturesDesk

/-- Endpoints that share one rate budget and one circuit breaker. -/
inductive EndpointClass where
  | marketData
  | account
  | order
  deriving DecidableEq, Repr

namespace EndpointClass

def all : List EndpointClass := [marketData, account, order]

def label : EndpointClass → String
  | marketData => "market-data"
  | account => "account"
  | order => "order"

end EndpointClass

inductive GatewayError where
  /-- The local budget is used up, or the exchange asked for fewer requests. -/
  | rateLimited (endpoint : EndpointClass)
  | circuitOpen (endpoint : EndpointClass)
  /-- Bad credentials or a missing permission. -/
  | unauthorized (detail : String)
  /-- The network or the exchange failed. -/
  | transient (detail : String)
  /-- The exchange refused the request for what it asks. -/
  | rejected (detail : String)
  deriving DecidableEq, Repr

namespace GatewayError

def message : GatewayError → String
  | rateLimited c => "rate limited on " ++ c.label ++ " endpoints"
  | circuitOpen c => "circuit open on " ++ c.label ++ " endpoints"
  | unauthorized detail => "unauthorized: " ++ detail
  | transient detail => "transient failure: " ++ detail
  | rejected detail => "rejected by exchange: " ++ detail

/-- Whether the endpoint itself seems unhealthy. -/
def indicatesOutage : GatewayError → Bool
  | transient _ => true
  | _ => false

/-- Whether the same call may be sent again. -/
def isRetryable : GatewayError → Bool
  | transient _ => true
  | _ => false

/-- Whether an operator has to step in. -/
def isFatal : GatewayError → Bool
  | unauthorized _ => true
  | _ => false

end GatewayError

end FuturesDesk
