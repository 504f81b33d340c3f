import FuturesDesk.Gateway.Guard
import FuturesDesk.Proofs.Program.Conversation
import Mathlib.Logic.Function.Basic

/-! A guard with all the calls that it carries out. A run is given by its events, each with its time
and its random draw: a call begins, is looked after, is answered by the exchange behind or is given
up. Whether an admission, a token or another attempt comes of it is up to the guard. -/
namespace FuturesDesk

namespace TokenBucket
variable {c : BucketConfig} {b : TokenBucket} {now t : Nat}

/-- A bucket that has no token does not get one before its time, however often it is asked. -/
theorem empty_until (later : now ≤ t) (empty : now < b.earliest c now)
    (early : t < b.earliest c now) : t < b.earliest c t := by
  cases arrival : b.arrival with
  | none =>
    simp only [earliest, arrival, Option.getD_none] at *
    omega
  | some a => simpa only [earliest, arrival, Option.getD_some] using early

/-- A bucket that has no token when it should have one never has one. -/
theorem empty_for_good (empty : now < b.earliest c now)
    (missed : b.earliest c now < b.earliest c (b.earliest c now)) (t : Nat) :
    t < b.earliest c t := by
  cases arrival : b.arrival with
  | none =>
    simp only [earliest, arrival, Option.getD_none] at *
    omega
  | some a =>
    simp only [earliest, arrival, Option.getD_some] at missed
    omega

/-- A bucket without a token refuses and stays as it is. -/
theorem ask_early (early : now < b.earliest c now) : limiter.ask c b now = (false, b) := by
  have refused : b.take? c now = none := if_pos early
  simp only [limiter, refused]

theorem ask_due (due : ¬ now < b.earliest c now) : ∃ t, limiter.ask c b now = (true, t) := by
  obtain ⟨t, taken⟩ : ∃ t, b.take? c now = some t := ⟨_, if_neg due⟩
  exact ⟨t, by simp only [limiter, taken]⟩

end TokenBucket

namespace RateBudget
variable {b : RateBudget TokenBucket.limiter} {c : EndpointClass} {now : Nat}

theorem ask_early (early : now < b.ready c now) : b.ask c now = (false, b) := by
  rw [ask, TokenBucket.ask_early early]
  exact congrArg (Prod.mk false) (b.setBucket_bucket c)

theorem ask_due (due : ¬ now < b.ready c now) : ∃ taken, b.ask c now = (true, taken) := by
  obtain ⟨t, given⟩ := TokenBucket.ask_due due
  exact ⟨b.setBucket t c, by rw [ask, given]⟩

end RateBudget

namespace Guarded

inductive Wait where
  /-- Nothing but its turn. -/
  | turn
  | token (since : Nat)
  | delay (wake : Nat)
  /-- The answer of the exchange behind. -/
  | answer

/-- Since when a call has waited for a token that asks for one at a time. -/
def Wait.tokenSince (time : Nat) : Wait → Nat
  | token since => since
  | _ => time

end Guarded

def RateLimitPolicy.waits (since time : Nat) : RateLimitPolicy → Bool
  | .block timeoutMs => time < since + timeoutMs * 1_000_000
  | .failFast => false

namespace Guard
open Guarded

variable {L : Limiter} {I : IdSource} {c : EndpointClass}

/-- What a guard says at a time to the step of a call: a reply, or what there is to wait for. Only
for a token and between two attempts is there a wait. -/
def respond (g : Guard L I) (time : Nat) (draw : UInt64) (wait : Wait) :
    (s : GuardStep) → Except Wait s.Reply × Guard L I
  | .takeToken c =>
    match g.apply (time / 1_000_000) time (.takeToken c) with
    | (.ok (), g) => (.ok (.ok ()), g)
    | (.error e, g) =>
      let since := wait.tokenSince time
      if g.budget.settings.policy.waits since time then (.error (.token since), g)
      else (.ok (.error e), g)
  | .pause attempt =>
    match wait with
    | .delay wake => if wake ≤ time then (.ok (), g) else (.error (.delay wake), g)
    | _ => (.error (.delay (time + (g.settings.retry.delay attempt draw).toNat * 1_000_000)), g)
  | s =>
    let (reply, g) := g.apply (time / 1_000_000) time s
    (.ok reply, g)

/-- Waiting changes nothing, so a guard is left as its answer leaves it. -/
theorem respond_guard (g : Guard L I) (time : Nat) (draw : UInt64) (wait : Wait) (s : GuardStep) :
    (g.respond time draw wait s).2 = (g.apply (time / 1_000_000) time s).2 := by
  cases s with
  | takeToken c =>
    simp only [respond]
    generalize g.apply (time / 1_000_000) time (.takeToken c) = r
    obtain ⟨reply, after⟩ := r
    cases reply with
    | ok => rfl
    | error refusal =>
      simp only
      split <;> rfl
  | pause attempt =>
    simp only [respond]
    split
    · split <;> rfl
    · rfl
  | _ => rfl

section
variable {g : BucketGuard} {time : Nat}

theorem respond_early (draw : UInt64) (wait : Wait) (early : time < g.budget.ready c time)
    (expired : g.budget.settings.policy.waits (wait.tokenSince time) time = false) :
    g.respond time draw wait (.takeToken c) = (.ok (.error (.rateLimited c)), g) := by
  simp [respond, Guard.apply, RateBudget.ask_early early, expired]

theorem respond_given {budget : RateBudget TokenBucket.limiter} (draw : UInt64) (wait : Wait)
    (given : g.budget.ask c time = (true, budget)) :
    g.respond time draw wait (.takeToken c) = (.ok (.ok ()), { g with budget }) := by
  simp [respond, Guard.apply, given]

/-- A caller that is alone and looked after in time gets the answer that the budget gives. -/
theorem respond_acquire (g : BucketGuard) (c : EndpointClass) (now : Nat) (draw : UInt64) :
    let (reply, budget, time) := g.budget.acquire c now
    g.respond time draw (.token now) (.takeToken c) = (.ok reply, { g with budget }) := by
  by_cases early : now < g.budget.ready c now
  · have refused := RateBudget.ask_early early
    cases policy : g.budget.settings.policy with
    | failFast =>
      simp only [RateBudget.acquire, refused, policy]
      refine respond_early draw _ early ?_
      rw [policy]
      rfl
    | block timeoutMs =>
      have expired : ∀ time, now + timeoutMs * 1_000_000 ≤ time →
          g.budget.settings.policy.waits now time = false := by
        intro time passed
        simpa [policy, RateLimitPolicy.waits] using passed
      simp only [RateBudget.acquire, refused, policy]
      split
      case isTrue before =>
        refine respond_early draw _ ?_ (expired _ (Nat.le_refl _))
        exact TokenBucket.empty_until (Nat.le_add_right now _) early before
      case isFalse =>
        by_cases missed :
            g.budget.ready c now < g.budget.ready c (g.budget.ready c now)
        · simp only [RateBudget.ask_early missed]
          refine respond_early draw _ ?_ (expired _ (Nat.le_refl _))
          exact TokenBucket.empty_for_good early missed _
        · obtain ⟨taken, given⟩ := RateBudget.ask_due missed
          simp only [given]
          exact respond_given draw _ given
  · obtain ⟨taken, given⟩ := RateBudget.ask_due early
    simp only [RateBudget.acquire, given]
    exact respond_given draw _ given

end

end Guard

namespace Guarded

structure UnderWay where
  call : ExchangeCall
  task : Task call.Reply
  wait : Wait := .turn

/-- What an event shows of a call: that it went to the exchange behind, or how it ended. -/
structure Report where
  sent : Option ExchangeCall := none
  result : Option (Program.Exchange ExchangeCall.Reply) := none

structure Outcome (L : Limiter) (I : IdSource) where
  left : Option UnderWay
  guard : Guard L I
  report : Report := {}

variable {L : Limiter} {I : IdSource}

namespace UnderWay

def reach (c : ExchangeCall) (g : Guard L I) : Task c.Reply → Outcome L I
  | .done reply => { left := none, guard := g, report := { result := some ⟨c, reply⟩ } }
  | .fault _ => { left := none, guard := g }
  | .ask step next => { left := some ⟨c, .ask step next, .turn⟩, guard := g }

/-- A call takes its next step, if it does not have to wait. -/
def turn (u : UnderWay) (g : Guard L I) (time : Nat) (draw : UInt64) : Outcome L I :=
  match u.task with
  | .ask (.guard s) next =>
    match g.respond time draw u.wait s with
    | (.ok reply, g) => reach u.call g (next reply)
    | (.error wait, g) => { left := some { u with wait }, guard := g }
  | .ask (.forward c) _ =>
    match u.wait with
    | .answer => { left := some u, guard := g }
    | _ => { left := some { u with wait := .answer }, guard := g, report := { sent := some c } }
  | _ => { left := some u, guard := g }

/-- The exchange behind answers a call that was sent there. -/
def hear (u : UnderWay) (g : Guard L I) (x : Program.Exchange ExchangeCall.Reply) : Outcome L I :=
  match u.task, u.wait with
  | .ask (.forward c) next, .answer =>
    if same : x.1 = c then reach u.call g (next (same ▸ x.2)) else { left := some u, guard := g }
  | _, _ => { left := some u, guard := g }

end UnderWay

inductive Act where
  | begin (call : ExchangeCall)
  /-- The call is looked after; a delay before another attempt takes a random part. -/
  | turn (draw : UInt64)
  | hear (exchange : Program.Exchange ExchangeCall.Reply)
  /-- Whoever made the call gives it up. -/
  | abandon

/-- Something that happens to a call, known by its class and a number, at a time in nanoseconds. -/
structure Event where
  time : Nat
  endpoint : EndpointClass
  number : Nat
  act : Act

/-- A guard with the calls that it carries out. -/
structure Hub (L : Limiter) (I : IdSource) where
  guard : Guard L I
  /-- Whether the exchange behind fills a client's order id at most once. -/
  knowsIds : Bool
  calls : EndpointClass → Nat → Option UnderWay := fun _ _ => none

/-- An event, with what it showed and the breaker of its class after it. -/
structure Entry where
  event : Event
  report : Report
  breaker : Breaker

namespace Hub

/-- A number is free for a call that its class has the endpoint for. -/
def outcome (h : Hub L I) (ev : Event) : Outcome L I :=
  match ev.act, h.calls ev.endpoint ev.number with
  | .begin c, none =>
    if c.endpoint = ev.endpoint then
      UnderWay.reach c h.guard (call h.guard.settings.retry h.knowsIds c)
    else { left := none, guard := h.guard }
  | .turn draw, some u => u.turn h.guard ev.time draw
  | .hear x, some u => u.hear h.guard x
  | .abandon, _ => { left := none, guard := h.guard }
  | _, found => { left := found, guard := h.guard }

def next (h : Hub L I) (ev : Event) : Hub L I :=
  { h with
    guard := (h.outcome ev).guard
    calls := Function.update h.calls ev.endpoint
      (Function.update (h.calls ev.endpoint) ev.number (h.outcome ev).left) }

def run (h : Hub L I) (events : List Event) : Hub L I := events.foldl next h

def log (h : Hub L I) : List Event → List Entry
  | [] => []
  | ev :: rest =>
    ⟨ev, (h.outcome ev).report, (h.next ev).guard.breakers.get ev.endpoint⟩ :: (h.next ev).log rest

theorem run_concat (h : Hub L I) (events : List Event) (ev : Event) :
    h.run (events ++ [ev]) = (h.run events).next ev :=
  List.foldl_append

end Hub

end Guarded

end FuturesDesk
