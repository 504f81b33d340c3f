import FuturesDesk.Gateway.Error
import FuturesDesk.Http.Status
import FuturesDesk.Json.Dialect
import FuturesDesk.Json.Reader

/-! What failed requests mean: the status decides first, then the exchange's own code in the body.
-/
namespace FuturesDesk.Binance

/-- The body of a refusal. -/
structure ApiError where
  code : Int
  text : String
  deriving DecidableEq, Repr

namespace ApiError

def code? (value : Json) : Option Int :=
  value.asWhole?.filter isWord64

def read? (value : Json) : Option ApiError := do
  let r ← Json.dialect.record? ["code", "msg"] value
  return { code := ← r.required "code" code?, text := ← r.required "msg" Json.asString? }

def ofBody? (body : String) : Option ApiError := (Json.scan? body).bind read?

def message (e : ApiError) : String := e.text ++ " (code " ++ toString e.code ++ ")"

/-- A bad signature, or a key that is malformed, revoked or lacks a permission. -/
def deniesAccess (e : ApiError) : Bool := [-1022, -2014, -2015].contains e.code

/-- A timestamp outside of the receive window. -/
def isClockDrift (e : ApiError) : Bool := e.code = -1021

end ApiError

def failureMessage (status : Nat) (body : String) : String :=
  match ApiError.ofBody? body with
  | some e => e.message
  | none => "HTTP " ++ Http.statusText status ++ ": " ++ body

/-- The failure that an unsuccessful response stands for. A ban answers 418. -/
def failureOf (endpoint : EndpointClass) (status : Nat) (body : String) : GatewayError :=
  let message := failureMessage status body
  if status = 401 ∨ status = 403 then .unauthorized message
  else if status = 429 ∨ status = 418 then .rateLimited endpoint
  else if status = 408 ∨ (500 ≤ status ∧ status < 600) then .transient message
  else
    match ApiError.ofBody? body with
    | some e =>
      if e.deniesAccess then .unauthorized message
      else if e.isClockDrift then .transient message
      else .rejected message
    | none => .rejected message

end FuturesDesk.Binance
