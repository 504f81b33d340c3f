import FuturesDesk.Gateway.Guard
import FuturesDesk.Proofs.Gateway.Discipline
import FuturesDesk.Proofs.Keyed

/-! Guarded calls side by side. Any number of calls share a guard and take their steps in any order;
time passes between any two steps, a token comes or does not come after any wait, and the exchange
behind may answer anything at any later time. -/
namespace FuturesDesk.Guarded

structure Flight where
  call : ExchangeCall
  task : Task call.Reply
  /-- Whether the call on the exchange behind has started and not ended. -/
  inside : Bool := false

structure Traffic where
  now : Nat
  guard : BucketGuard
  flights : Nat → Option Flight

namespace Traffic

def empty (now : Nat) (guard : BucketGuard) : Traffic := ⟨now, guard, fun _ => none⟩

def put (s : Traffic) (i : Nat) (f : Option Flight) : Traffic :=
  { s with flights := Function.update s.flights i f }

inductive Move where
  | wait (ms : Nat)
  | begin (flight : Nat) (call : ExchangeCall)
  | guard (flight : Nat) (step : GuardStep)
  /-- The wait for a token is over, with a token or without. -/
  | token (flight : Nat) (endpoint : EndpointClass) (reply : Except GatewayError Unit)
  | start (flight : Nat) (call : ExchangeCall)
  | finish (flight : Nat) (exchange : Program.Exchange ExchangeCall.Reply)
  | abandon (flight : Nat)

inductive Moves (p : RetryPolicy) (knowsIds : Bool) : Traffic → Move → Traffic → Prop where
  | wait {s : Traffic} (ms : Nat) : Moves p knowsIds s (.wait ms) { s with now := s.now + ms }
  | begin {s : Traffic} {i : Nat} (free : s.flights i = none) (c : ExchangeCall) :
      Moves p knowsIds s (.begin i c) (s.put i (some ⟨c, call p knowsIds c, false⟩))
  | guard {s : Traffic} {i : Nat} {c : ExchangeCall} {q : GuardStep}
      {next : Step.Reply (.guard q) → Task c.Reply}
      (found : s.flights i = some ⟨c, .ask (.guard q) next, false⟩)
      (atOnce : ∀ e, q ≠ .takeToken e) :
      Moves p knowsIds s (.guard i q)
        ({ s with guard := (s.guard.apply s.now 0 q).2 }.put i
          (some ⟨c, next (s.guard.apply s.now 0 q).1, false⟩))
  | token {s : Traffic} {i : Nat} {c : ExchangeCall} {e : EndpointClass}
      {next : Step.Reply (.guard (.takeToken e)) → Task c.Reply}
      (found : s.flights i = some ⟨c, .ask (.guard (.takeToken e)) next, false⟩)
      (reply : Except GatewayError Unit) :
      Moves p knowsIds s (.token i e reply) (s.put i (some ⟨c, next reply, false⟩))
  | start {s : Traffic} {i : Nat} {c r : ExchangeCall} {next : Step.Reply (.forward r) → Task c.Reply}
      (found : s.flights i = some ⟨c, .ask (.forward r) next, false⟩) :
      Moves p knowsIds s (.start i r) (s.put i (some ⟨c, .ask (.forward r) next, true⟩))
  | finish {s : Traffic} {i : Nat} {c r : ExchangeCall} {next : Step.Reply (.forward r) → Task c.Reply}
      (found : s.flights i = some ⟨c, .ask (.forward r) next, true⟩) (reply : r.Reply) :
      Moves p knowsIds s (.finish i ⟨r, reply⟩) (s.put i (some ⟨c, next reply, false⟩))
  | abandon {s : Traffic} (i : Nat) : Moves p knowsIds s (.abandon i) (s.put i none)

inductive Runs (p : RetryPolicy) (knowsIds : Bool) : Traffic → List Move → Traffic → Prop where
  | refl {s : Traffic} : Runs p knowsIds s [] s
  | step {s t u : Traffic} {ms : List Move} {m : Move} (run : Runs p knowsIds s ms t)
      (move : Moves p knowsIds t m u) : Runs p knowsIds s (ms ++ [m]) u

variable {p : RetryPolicy} {knowsIds : Bool} {s t : Traffic} {m : Move} {ms : List Move}

theorem put_flights (s : Traffic) (i j : Nat) (f : Option Flight) :
    (s.put i f).flights j = if j = i then f else s.flights j := by
  simp [put, Function.update_apply]

theorem forall_put {P : Nat → Flight → Prop} {i : Nat} {f : Option Flight}
    (others : ∀ j g, s.flights j = some g → P j g) (this : ∀ g ∈ f, P i g) :
    ∀ j g, (s.put i f).flights j = some g → P j g := by
  intro j g found
  obtain ⟨rfl, new⟩ | ⟨_, old⟩ := Keyed.of_update found
  · exact this g new
  · exact others j g old

def Orderly (s : Traffic) : Prop :=
  ∀ i f, s.flights i = some f → ∃ stage, Disciplined f.call.endpoint stage f.task

theorem moves_orderly (orderly : s.Orderly) (move : Moves p knowsIds s m t) : t.Orderly := by
  have put : ∀ {u : Traffic} {i : Nat} {c : ExchangeCall} {task : Task c.Reply} {inside : Bool}
      {stage : Stage}, u.flights = s.flights → Disciplined c.endpoint stage task →
      (u.put i (some ⟨c, task, inside⟩)).Orderly := by
    intro u i c task inside stage same fits
    refine forall_put (P := fun _ f => ∃ stage, Disciplined f.call.endpoint stage f.task) ?_ ?_
    · rw [same]
      exact orderly
    · rintro _ ⟨⟩
      exact ⟨stage, fits⟩
  cases move with
  | wait => exact orderly
  | begin _ c => exact put rfl (call_disciplined p knowsIds c)
  | @guard _ c q next found atOnce =>
    obtain ⟨stage, fits⟩ : ∃ stage, Disciplined c.endpoint stage (.ask (.guard q) next) :=
      orderly _ _ found
    cases fits with
    | acquire refused admitted =>
      cases (s.guard.apply s.now 0 (.acquire _)).1 with
      | none => exact put rfl refused
      | some a => exact put rfl (admitted a)
    | pause rest => exact put rfl rest
    | freshId rest => exact put rfl (rest _)
    | takeToken => exact absurd rfl (atOnce _)
    | release rest => exact put rfl rest
    | report rest => exact put rfl rest
  | @token _ c e next found reply =>
    obtain ⟨stage, fits⟩ :
        ∃ stage, Disciplined c.endpoint stage (.ask (.guard (.takeToken e)) next) :=
      orderly _ _ found
    cases fits with
    | takeToken granted denied =>
      cases reply with
      | ok => exact put rfl granted
      | error failure => exact put rfl (denied failure)
  | start found =>
    obtain ⟨stage, fits⟩ := orderly _ _ found
    exact put rfl fits
  | finish found reply =>
    obtain ⟨stage, fits⟩ := orderly _ _ found
    cases fits with
    | forward _ rest => exact put rfl (rest reply)
  | abandon i =>
    exact forall_put (P := fun _ f => ∃ stage, Disciplined f.call.endpoint stage f.task) orderly
      fun _ never => by cases never

theorem runs_orderly (orderly : s.Orderly) (run : Runs p knowsIds s ms t) : t.Orderly := by
  induction run with
  | refl => exact orderly
  | step _ move ih => exact moves_orderly ih move

theorem moves_now (move : Moves p knowsIds s m t) : s.now ≤ t.now := by
  cases move with
  | wait ms => exact Nat.le_add_right _ _
  | _ => exact Nat.le_refl _

theorem runs_now (run : Runs p knowsIds s ms t) : s.now ≤ t.now := by
  induction run with
  | refl => exact Nat.le_refl _
  | step _ move ih => exact Nat.le_trans ih (moves_now move)

end Traffic

end FuturesDesk.Guarded
