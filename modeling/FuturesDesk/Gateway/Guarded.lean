import FuturesDesk.Exchange.Call
import FuturesDesk.Gateway.Settings

/-! Guarded access to an exchange that many bots share. One attempt passes the circuit breaker, then
takes a token from the budget, then makes the call and reports how it ended. Transient failures are
tried again, except for orders on an exchange that cannot tell a repeated order from a new one. -/
namespace FuturesDesk.Guarded

/-- What a guarded call asks of the shared guard. -/
inductive GuardStep where
  | acquire (endpoint : EndpointClass)
  | takeToken (endpoint : EndpointClass)
  | report (endpoint : EndpointClass) (admission : Admission) (failure : Option GatewayError)
  | release (endpoint : EndpointClass) (admission : Admission)
  /-- Waits after a failed attempt, counted from one. -/
  | pause (attempt : Nat)
  /-- An id for an order that no other order has. -/
  | freshId
  deriving DecidableEq

abbrev GuardStep.Reply : GuardStep → Type
  | acquire _ => Option Admission
  | takeToken _ => Except GatewayError Unit
  | report _ _ _ => Unit
  | release _ _ => Unit
  | pause _ => Unit
  | freshId => String

inductive Step where
  | guard (step : GuardStep)
  /-- A call on the exchange behind the guard. -/
  | forward (call : ExchangeCall)
  deriving DecidableEq

abbrev Step.Reply : Step → Type
  | guard s => s.Reply
  | forward c => c.Reply

abbrev Task (α : Type) : Type := Program Step Step.Reply α

def guard (s : GuardStep) : Task s.Reply := Program.question (Step.guard s)

def forward (c : ExchangeCall) : Task c.Reply := Program.question (Step.forward c)

def failure? {α : Type} : Except GatewayError α → Option GatewayError
  | .ok _ => none
  | .error e => some e

/-- One attempt. An admission that gets no token is handed back. -/
def attempt (c : ExchangeCall) : Task c.Reply := do
  match ← guard (.acquire c.endpoint) with
  | none => return .error (.circuitOpen c.endpoint)
  | some admission =>
    match ← guard (.takeToken c.endpoint) with
    | .error e =>
      guard (.release c.endpoint admission)
      return .error e
    | .ok () =>
      let reply ← forward c
      guard (.report c.endpoint admission (failure? reply))
      return reply

/-- Attempts until one does not fail transiently, with `more` of them after the given one. -/
def attempts (c : ExchangeCall) (number : Nat) : (more : Nat) → Task c.Reply
  | 0 => attempt c
  | more + 1 => do
    let reply ← attempt c
    match reply with
    | .error (.transient _) =>
      guard (.pause number)
      attempts c (number + 1) more
    | _ => return reply

def retried (p : RetryPolicy) (c : ExchangeCall) : Task c.Reply :=
  attempts c 1 (p.maxAttempts - 1)

/-- The order with an id, its own or a fresh one. -/
def identified (order : Order) : Task Order := do
  match order.clientId with
  | some _ => return order
  | none =>
    let id ← guard .freshId
    return { order with clientId := some id }

/-- Tries an order again only where a repeated id fills at most once. -/
def placeOrder (p : RetryPolicy) (knowsIds : Bool) (order : Order) :
    Task (Except GatewayError OrderAck) := do
  if knowsIds then retried p (.placeOrder (← identified order))
  else attempt (.placeOrder order)

/-- How an exchange call is carried out; `knowsIds` tells whether the exchange behind fills a
client's order id at most once. -/
def call (p : RetryPolicy) (knowsIds : Bool) : (c : ExchangeCall) → Task c.Reply
  | .placeOrder order => placeOrder p knowsIds order
  | c => retried p c

end FuturesDesk.Guarded
