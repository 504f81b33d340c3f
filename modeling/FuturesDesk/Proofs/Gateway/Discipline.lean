import FuturesDesk.Gateway.Guarded
import FuturesDesk.Proofs.Program.Conversation

/-! The order of steps that every guarded call keeps, whatever it is answered: an admission, a token,
the call on the exchange behind, and a report of how it ended; an admission without a token is
released, and one without either is where a call rests. -/
namespace FuturesDesk.Guarded

inductive Stage where
  | resting
  /-- Admitted, and without a token. -/
  | admitted (a : Admission)
  /-- Admitted, with a token. -/
  | cleared (a : Admission)
  /-- Admitted, and no token is to be had. -/
  | denied (a : Admission)
  /-- The call behind has ended. -/
  | answered (a : Admission) (failure : Option GatewayError)

/-- What is left of a call on endpoints of a class keeps the order of steps. -/
inductive Disciplined (e : EndpointClass) {α : Type} : Stage → Task α → Prop where
  | over {a : α} : Disciplined e .resting (.done a)
  | acquire {next : Step.Reply (.guard (.acquire e)) → Task α}
      (refused : Disciplined e .resting (next none))
      (admitted : ∀ a, Disciplined e (.admitted a) (next (some a))) :
      Disciplined e .resting (.ask (.guard (.acquire e)) next)
  | pause {n : Nat} {next : Step.Reply (.guard (.pause n)) → Task α}
      (rest : Disciplined e .resting (next ())) :
      Disciplined e .resting (.ask (.guard (.pause n)) next)
  | freshId {next : Step.Reply (.guard .freshId) → Task α}
      (rest : ∀ id, Disciplined e .resting (next id)) :
      Disciplined e .resting (.ask (.guard .freshId) next)
  | takeToken {a : Admission} {next : Step.Reply (.guard (.takeToken e)) → Task α}
      (granted : Disciplined e (.cleared a) (next (.ok ())))
      (denied : ∀ failure, Disciplined e (.denied a) (next (.error failure))) :
      Disciplined e (.admitted a) (.ask (.guard (.takeToken e)) next)
  | release {a : Admission} {next : Step.Reply (.guard (.release e a)) → Task α}
      (rest : Disciplined e .resting (next ())) :
      Disciplined e (.denied a) (.ask (.guard (.release e a)) next)
  | forward {a : Admission} {c : ExchangeCall} {next : Step.Reply (.forward c) → Task α}
      (same : c.endpoint = e)
      (rest : ∀ reply : c.Reply, Disciplined e (.answered a (failure? reply)) (next reply)) :
      Disciplined e (.cleared a) (.ask (.forward c) next)
  | report {a : Admission} {failure : Option GatewayError}
      {next : Step.Reply (.guard (.report e a failure)) → Task α}
      (rest : Disciplined e .resting (next ())) :
      Disciplined e (.answered a failure) (.ask (.guard (.report e a failure)) next)

theorem attempt_disciplined (c : ExchangeCall) {α : Type} {f : c.Reply → Task α}
    (rest : ∀ reply, Disciplined c.endpoint .resting (f reply)) :
    Disciplined c.endpoint .resting (attempt c >>= f) := by
  refine .acquire (rest _) ?_
  intro a
  refine .takeToken ?_ ?_
  · refine .forward rfl ?_
    intro reply
    exact .report (rest reply)
  · intro failure
    exact .release (rest _)

theorem attempts_disciplined (c : ExchangeCall) (number more : Nat) :
    Disciplined c.endpoint .resting (attempts c number more) := by
  induction more generalizing number with
  | zero =>
    rw [attempts, ← Program.bind_done (attempt c)]
    exact attempt_disciplined c fun reply => .over
  | succ more ih =>
    rw [attempts]
    refine attempt_disciplined c ?_
    intro reply
    split
    · exact .pause (ih (number + 1))
    · exact .over

theorem placeOrder_disciplined (p : RetryPolicy) (knowsIds : Bool) (order : Order) :
    Disciplined .order .resting (placeOrder p knowsIds order) := by
  rw [placeOrder]
  cases knowsIds with
  | true =>
    cases known : order.clientId with
    | some id =>
      simp only [if_true, identified, known]
      exact attempts_disciplined (.placeOrder order) 1 _
    | none =>
      simp only [if_true, identified, known]
      exact .freshId fun id =>
        attempts_disciplined (.placeOrder { order with clientId := some id }) 1 _
  | false =>
    simp only [Bool.false_eq_true, if_false]
    rw [← Program.bind_done (attempt (.placeOrder order))]
    exact attempt_disciplined (.placeOrder order) fun reply => .over

/-- Every guarded call keeps the order of steps. -/
theorem call_disciplined (p : RetryPolicy) (knowsIds : Bool) (c : ExchangeCall) :
    Disciplined c.endpoint .resting (call p knowsIds c) := by
  cases c with
  | placeOrder order => exact placeOrder_disciplined p knowsIds order
  | candles symbol timeframe lookback => exact attempts_disciplined _ 1 _
  | price symbol => exact attempts_disciplined _ 1 _
  | balance => exact attempts_disciplined _ 1 _
  | setLeverage symbol leverage => exact attempts_disciplined _ 1 _

end FuturesDesk.Guarded
