import FuturesDesk.Proofs.Gateway.Hub

/-! Endpoint classes do not disturb each other. One guard carries out the calls of all classes in
any interleaving. What a class sees of it are its own breaker, its own limiter and the calls on its
own endpoints; events of other classes leave these alone, and its own events depend on nothing else.
So two runs that agree on the events of a class agree on all that it sees, whatever else they do. -/
namespace FuturesDesk

namespace Guarded
open Program

/-- A step that a call on endpoints of a class may take. Only orders are given ids. -/
def Concerns (e : EndpointClass) : Step → Prop
  | .guard (.acquire c) => c = e
  | .guard (.takeToken c) => c = e
  | .guard (.report c _ _) => c = e
  | .guard (.release c _) => c = e
  | .guard (.pause _) => True
  | .guard .freshId => e = .order
  | .forward c => c.endpoint = e

theorem attempt_concerns (c : ExchangeCall) : (attempt c).Only (Concerns c.endpoint) := by
  refine ⟨rfl, ?_⟩
  rintro (_ | admission)
  · trivial
  · refine ⟨rfl, ?_⟩
    rintro (e | ⟨⟩)
    · exact ⟨rfl, fun _ => trivial⟩
    · exact ⟨rfl, fun reply => ⟨rfl, fun _ => trivial⟩⟩

theorem attempts_concerns (c : ExchangeCall) (number more : Nat) :
    (attempts c number more).Only (Concerns c.endpoint) := by
  induction more generalizing number with
  | zero => exact attempt_concerns c
  | succ more ih =>
    rw [attempts]
    refine (attempt_concerns c).bind ?_
    intro reply
    split
    · exact ⟨trivial, fun _ => ih (number + 1)⟩
    · trivial

theorem placeOrder_concerns (p : RetryPolicy) (knowsIds : Bool) (order : Order) :
    (placeOrder p knowsIds order).Only (Concerns .order) := by
  rw [placeOrder]
  split
  · refine Only.bind ?_ fun keyed => attempts_concerns (.placeOrder keyed) 1 _
    rw [identified]
    split
    · trivial
    · exact ⟨rfl, fun _ => trivial⟩
  · exact attempt_concerns (.placeOrder order)

/-- A call keeps to the endpoints of its class. -/
theorem call_concerns (p : RetryPolicy) (knowsIds : Bool) (c : ExchangeCall) :
    (call p knowsIds c).Only (Concerns c.endpoint) := by
  cases c with
  | placeOrder order => exact placeOrder_concerns p knowsIds order
  | candles symbol timeframe lookback => exact attempts_concerns _ 1 _
  | price symbol => exact attempts_concerns _ 1 _
  | balance => exact attempts_concerns _ 1 _
  | setLeverage symbol leverage => exact attempts_concerns _ 1 _

end Guarded

namespace Guard
open Guarded

variable {L : Limiter} {I : IdSource}

/-- Two guards that a class cannot tell apart. -/
structure Alike (e : EndpointClass) (g g' : Guard L I) : Prop where
  settings : g.settings = g'.settings
  limits : g.budget.settings = g'.budget.settings
  breaker : g.breakers.get e = g'.breakers.get e
  bucket : g.budget.bucket e = g'.budget.bucket e
  ids : e = .order → g.ids = g'.ids

variable {e c : EndpointClass} {g g' g'' : Guard L I} {s : GuardStep}

theorem Alike.refl (e : EndpointClass) (g : Guard L I) : g.Alike e g :=
  ⟨rfl, rfl, rfl, rfl, fun _ => rfl⟩

theorem Alike.symm (alike : g.Alike e g') : g'.Alike e g where
  settings := alike.settings.symm
  limits := alike.limits.symm
  breaker := alike.breaker.symm
  bucket := alike.bucket.symm
  ids := fun order => (alike.ids order).symm

theorem Alike.trans (first : g.Alike e g') (second : g'.Alike e g'') : g.Alike e g'' where
  settings := first.settings.trans second.settings
  limits := first.limits.trans second.limits
  breaker := first.breaker.trans second.breaker
  bucket := first.bucket.trans second.bucket
  ids := fun order => (first.ids order).trans (second.ids order)

theorem Alike.setBreaker (alike : g.Alike e g') (b : Breaker) :
    (g.setBreaker e b).Alike e (g'.setBreaker e b) where
  settings := alike.settings
  limits := alike.limits
  breaker := by simp [Guard.setBreaker, Breakers.get_set]
  bucket := alike.bucket
  ids := alike.ids

theorem setBreaker_other (g : Guard L I) (b : Breaker) (other : c ≠ e) :
    (g.setBreaker c b).Alike e g where
  settings := rfl
  limits := rfl
  breaker := by simp [setBreaker, Breakers.get_set, other]
  bucket := rfl
  ids := fun _ => rfl

theorem Alike.setBucket (alike : g.Alike e g') (t : L.State) :
    Alike e { g with budget := g.budget.setBucket t e }
      { g' with budget := g'.budget.setBucket t e } where
  settings := alike.settings
  limits := by simp [alike.limits]
  breaker := alike.breaker
  bucket := by simp [RateBudget.bucket_setBucket]
  ids := alike.ids

theorem setBucket_other (g : Guard L I) (t : L.State) (other : c ≠ e) :
    Alike e { g with budget := g.budget.setBucket t c } g where
  settings := rfl
  limits := by simp
  breaker := rfl
  bucket := by simp [RateBudget.bucket_setBucket, other]
  ids := fun _ => rfl

/-- To a step of the class two such guards give one answer, and stay alike. -/
theorem Alike.apply (alike : g.Alike e g') (now time : Nat) (own : Concerns e (.guard s)) :
    (g.apply now time s).1 = (g'.apply now time s).1 ∧
      (g.apply now time s).2.Alike e (g'.apply now time s).2 := by
  cases s with
  | acquire c =>
    obtain rfl : c = e := own
    simp only [Guard.apply, alike.breaker, alike.settings]
    exact ⟨trivial, alike.setBreaker _⟩
  | takeToken c =>
    obtain rfl : c = e := own
    simp only [Guard.apply, RateBudget.ask, alike.bucket, alike.limits]
    generalize L.ask (g'.budget.settings.bucket c) (g'.budget.bucket c) time = answer
    obtain ⟨given, t⟩ := answer
    cases given <;> exact ⟨rfl, alike.setBucket t⟩
  | report c a failure =>
    obtain rfl : c = e := own
    simp only [Guard.apply, alike.breaker, alike.settings]
    exact ⟨trivial, alike.setBreaker _⟩
  | release c a =>
    obtain rfl : c = e := own
    simp only [Guard.apply, alike.breaker]
    exact ⟨trivial, alike.setBreaker _⟩
  | pause => exact ⟨rfl, alike⟩
  | freshId =>
    have same := alike.ids own
    simp only [Guard.apply, same]
    exact ⟨trivial, { alike with ids := fun _ => rfl }⟩

/-- A step of another class changes nothing that the class can see. -/
theorem apply_other (g : Guard L I) (now time : Nat) (own : Concerns c (.guard s)) (other : c ≠ e) :
    (g.apply now time s).2.Alike e g := by
  cases s with
  | acquire d =>
    obtain rfl : d = c := own
    exact g.setBreaker_other _ other
  | takeToken d =>
    obtain rfl : d = c := own
    simp only [Guard.apply, RateBudget.ask]
    generalize L.ask (g.budget.settings.bucket d) (g.budget.bucket d) time = answer
    obtain ⟨given, t⟩ := answer
    cases given <;> exact g.setBucket_other t other
  | report d a failure =>
    obtain rfl : d = c := own
    exact g.setBreaker_other _ other
  | release d a =>
    obtain rfl : d = c := own
    exact g.setBreaker_other _ other
  | pause => exact .refl e g
  | freshId =>
    obtain rfl : c = .order := own
    exact ⟨rfl, rfl, rfl, rfl, fun same => absurd same.symm other⟩

/-- Two such guards let a call of the class go on alike or wait alike. -/
theorem Alike.respond (alike : g.Alike e g') (time : Nat) (draw : UInt64) (wait : Wait)
    (own : Concerns e (.guard s)) :
    (g.respond time draw wait s).1 = (g'.respond time draw wait s).1 ∧
      (g.respond time draw wait s).2.Alike e (g'.respond time draw wait s).2 := by
  obtain ⟨same, after⟩ := alike.apply (time / 1_000_000) time own
  refine ⟨?_, by simpa only [respond_guard] using after⟩
  cases s with
  | takeToken c =>
    simp only [Guard.respond]
    generalize g.apply (time / 1_000_000) time (.takeToken c) = r at same after
    generalize g'.apply (time / 1_000_000) time (.takeToken c) = r' at same after
    obtain ⟨reply, g⟩ := r
    obtain ⟨reply', g'⟩ := r'
    obtain rfl : reply = reply' := same
    cases reply with
    | ok => rfl
    | error refusal =>
      have limits : g.budget.settings = g'.budget.settings := after.limits
      simp only [limits]
      split <;> rfl
  | pause attempt =>
    simp only [Guard.respond, alike.settings]
    split
    · split <;> rfl
    · rfl
  | _ => exact congrArg Except.ok same

theorem respond_other (g : Guard L I) (time : Nat) (draw : UInt64) (wait : Wait)
    (own : Concerns c (.guard s)) (other : c ≠ e) : (g.respond time draw wait s).2.Alike e g := by
  rw [respond_guard]
  exact g.apply_other (time / 1_000_000) time own other

end Guard

namespace Guarded
open Program

variable {L : Limiter} {I : IdSource}

namespace Outcome

structure Alike (e : EndpointClass) (o o' : Outcome L I) : Prop where
  left : o.left = o'.left
  guard : o.guard.Alike e o'.guard
  report : o.report = o'.report

/-- What is left keeps to the endpoints of a class, and the other classes see nothing of it. -/
structure Confined (c : EndpointClass) (g : Guard L I) (o : Outcome L I) : Prop where
  keeps : ∀ u ∈ o.left, u.task.Only (Concerns c)
  others : ∀ e, c ≠ e → o.guard.Alike e g

variable {c : EndpointClass} {g : Guard L I}

theorem Confined.none {report : Report} : Confined c g ⟨none, g, report⟩ :=
  ⟨nofun, fun e _ => .refl e g⟩

theorem Confined.some {u : UnderWay} (only : u.task.Only (Concerns c)) {report : Report} :
    Confined c g ⟨some u, g, report⟩ := by
  refine ⟨?_, fun e _ => .refl e g⟩
  rintro _ ⟨⟩
  exact only

theorem Confined.before {g' : Guard L I} {o : Outcome L I} (later : Confined c g' o)
    (first : ∀ e, c ≠ e → g'.Alike e g) : Confined c g o :=
  ⟨later.keeps, fun e other => (later.others e other).trans (first e other)⟩

end Outcome

namespace UnderWay

variable {e c : EndpointClass} {u : UnderWay} {g g' : Guard L I}

theorem reach_alike {call : ExchangeCall} (alike : g.Alike e g') (task : Task call.Reply) :
    (reach call g task).Alike e (reach call g' task) := by
  cases task with
  | done => exact ⟨rfl, alike, rfl⟩
  | fault => exact ⟨rfl, alike, rfl⟩
  | ask => exact ⟨rfl, alike, rfl⟩

theorem reach_confined {call : ExchangeCall} {task : Task call.Reply}
    (only : task.Only (Concerns c)) : (reach call g task).Confined c g := by
  cases task with
  | done => exact .none
  | fault => exact .none
  | ask => exact .some only

theorem turn_alike (only : u.task.Only (Concerns e)) (alike : g.Alike e g') (time : Nat)
    (draw : UInt64) : (u.turn g time draw).Alike e (u.turn g' time draw) := by
  obtain ⟨call, task, wait⟩ := u
  cases task with
  | done => exact ⟨rfl, alike, rfl⟩
  | fault => exact ⟨rfl, alike, rfl⟩
  | ask step next =>
    cases step with
    | guard s =>
      obtain ⟨same, after⟩ := alike.respond time draw wait only.1
      simp only [turn]
      generalize g.respond time draw wait s = r at same after
      generalize g'.respond time draw wait s = r' at same after
      obtain ⟨answer, g⟩ := r
      obtain ⟨answer', g'⟩ := r'
      obtain rfl : answer = answer' := same
      cases answer with
      | ok reply => exact reach_alike after (next reply)
      | error => exact ⟨rfl, after, rfl⟩
    | forward call =>
      simp only [turn]
      split
      · exact ⟨rfl, alike, rfl⟩
      · exact ⟨rfl, alike, rfl⟩

theorem turn_confined (only : u.task.Only (Concerns c)) (g : Guard L I) (time : Nat) (draw : UInt64) :
    (u.turn g time draw).Confined c g := by
  obtain ⟨call, task, wait⟩ := u
  cases task with
  | done => exact .some only
  | fault => exact .some only
  | ask step next =>
    cases step with
    | guard s =>
      have others : ∀ e, c ≠ e → (g.respond time draw wait s).2.Alike e g :=
        fun e => g.respond_other time draw wait only.1
      simp only [turn]
      generalize g.respond time draw wait s = r at others
      obtain ⟨answer, g'⟩ := r
      cases answer with
      | ok reply => exact (reach_confined (only.2 reply)).before others
      | error wait => exact (Outcome.Confined.some (u := ⟨call, _, wait⟩) only).before others
    | forward sent =>
      simp only [turn]
      split
      · exact .some only
      · exact .some (u := ⟨call, _, .answer⟩) only

theorem hear_alike (u : UnderWay) (alike : g.Alike e g')
    (x : Program.Exchange ExchangeCall.Reply) : (u.hear g x).Alike e (u.hear g' x) := by
  simp only [hear]
  split
  · split
    · exact reach_alike alike _
    · exact ⟨rfl, alike, rfl⟩
  · exact ⟨rfl, alike, rfl⟩

theorem hear_confined (only : u.task.Only (Concerns c)) (g : Guard L I)
    (x : Program.Exchange ExchangeCall.Reply) : (u.hear g x).Confined c g := by
  fun_cases hear with
  | case1 _ next asked =>
    rw [asked] at only
    exact reach_confined (only.2 _)
  | case2 => exact .some only
  | case3 => exact .some only

end UnderWay

namespace Hub

variable {h h' : Hub L I} {ev : Event} {e : EndpointClass} {events : List Event}

def Orderly (h : Hub L I) : Prop := ∀ c i u, h.calls c i = some u → u.task.Only (Concerns c)

structure Alike (e : EndpointClass) (h h' : Hub L I) : Prop where
  guard : h.guard.Alike e h'.guard
  knowsIds : h.knowsIds = h'.knowsIds
  calls : h.calls e = h'.calls e

theorem Alike.refl (e : EndpointClass) (h : Hub L I) : h.Alike e h := ⟨.refl e h.guard, rfl, rfl⟩

theorem Alike.symm (alike : h.Alike e h') : h'.Alike e h :=
  ⟨alike.guard.symm, alike.knowsIds.symm, alike.calls.symm⟩

theorem Alike.trans {h'' : Hub L I} (first : h.Alike e h') (second : h'.Alike e h'') :
    h.Alike e h'' :=
  ⟨first.guard.trans second.guard, first.knowsIds.trans second.knowsIds,
    first.calls.trans second.calls⟩

theorem outcome_confined (orderly : h.Orderly) (ev : Event) :
    (h.outcome ev).Confined ev.endpoint h.guard := by
  fun_cases outcome with
  | case1 c _ _ same =>
    rw [← same]
    exact UnderWay.reach_confined (call_concerns _ h.knowsIds c)
  | case2 => exact .none
  | case3 draw u found => exact UnderWay.turn_confined (orderly _ _ u found) h.guard ev.time draw
  | case4 x u found => exact UnderWay.hear_confined (orderly _ _ u found) h.guard x
  | case5 => exact .none
  | case6 => exact ⟨orderly _ _, fun e _ => .refl e h.guard⟩

theorem outcome_alike (orderly : h.Orderly) (alike : h.Alike e h') (own : ev.endpoint = e) :
    (h.outcome ev).Alike e (h'.outcome ev) := by
  subst own
  simp only [outcome, ← alike.calls, ← alike.knowsIds, ← alike.guard.settings]
  split
  case h_1 =>
    split
    · exact UnderWay.reach_alike alike.guard _
    · exact ⟨rfl, alike.guard, rfl⟩
  case h_2 draw u _ found =>
    exact UnderWay.turn_alike (orderly _ _ u found) alike.guard ev.time draw
  case h_3 x u _ _ => exact UnderWay.hear_alike u alike.guard x
  case h_4 => exact ⟨rfl, alike.guard, rfl⟩
  case h_5 => exact ⟨rfl, alike.guard, rfl⟩

theorem next_orderly (orderly : h.Orderly) (ev : Event) : (h.next ev).Orderly := by
  intro c i u found
  by_cases class_ : c = ev.endpoint
  · subst class_
    simp only [next, Function.update_self] at found
    by_cases number : i = ev.number
    · subst number
      rw [Function.update_self] at found
      exact (outcome_confined orderly ev).keeps u found
    · rw [Function.update_of_ne number] at found
      exact orderly _ i u found
  · simp only [next, Function.update_of_ne class_] at found
    exact orderly c i u found

theorem next_alike (orderly : h.Orderly) (alike : h.Alike e h') (own : ev.endpoint = e) :
    (h.next ev).Alike e (h'.next ev) := by
  have same := outcome_alike orderly alike own
  subst own
  refine ⟨same.guard, alike.knowsIds, ?_⟩
  simp [next, alike.calls, same.left]

theorem next_other (orderly : h.Orderly) (other : ev.endpoint ≠ e) : (h.next ev).Alike e h := by
  refine ⟨(outcome_confined orderly ev).others e other, rfl, ?_⟩
  simp [next, Function.update_of_ne other.symm]

theorem run_orderly (orderly : h.Orderly) (events : List Event) : (h.run events).Orderly := by
  induction events generalizing h with
  | nil => exact orderly
  | cons ev rest ih => exact ih (next_orderly orderly ev)

/-- To a class a run is one over its own events only. -/
theorem run_own (orderly : h.Orderly) (orderly' : h'.Orderly) (alike : h.Alike e h')
    (events : List Event) :
    (h.log events).filter (·.event.endpoint = e) = h'.log (events.filter (·.endpoint = e)) ∧
      (h.run events).Alike e (h'.run (events.filter (·.endpoint = e))) := by
  induction events generalizing h h' with
  | nil => exact ⟨rfl, alike⟩
  | cons ev rest ih =>
    by_cases own : ev.endpoint = e
    · have after := next_alike orderly alike own
      have report := (outcome_alike orderly alike own).report
      obtain ⟨logs, runs⟩ := ih (next_orderly orderly ev) (next_orderly orderly' ev) after
      rw [List.filter_cons_of_pos (by simpa using own)]
      refine ⟨?_, runs⟩
      rw [log, log, List.filter_cons_of_pos (by simpa using own), logs, report]
      subst own
      rw [after.guard.breaker]
    · have after := (next_other orderly own).trans alike
      obtain ⟨logs, runs⟩ := ih (next_orderly orderly ev) orderly' after
      rw [List.filter_cons_of_neg (by simpa using own)]
      refine ⟨?_, runs⟩
      rw [log, List.filter_cons_of_neg (by simpa using own), logs]

theorem idle_orderly {g : Guard L I} {knowsIds : Bool} :
    ({ guard := g, knowsIds } : Hub L I).Orderly := by
  rintro _ _ _ ⟨⟩

/-- Two runs of one guard that agree on the events of a class show the class the same: the same
calls go to the exchange behind, they end with the same results, and the breaker of the class goes
through the same states. Events of other classes leave all that the class sees as it was, and in the
end its breaker, its limiter and its calls under way are the same. That holds for any limiters, and
for any source of ids, whose answers depend on the time and on what they were asked before. -/
theorem classes_isolated {g : Guard L I} {knowsIds : Bool} {e : EndpointClass}
    {events events' : List Event}
    (same : events.filter (·.endpoint = e) = events'.filter (·.endpoint = e)) :
    let h : Hub L I := { guard := g, knowsIds }
    (h.log events).filter (·.event.endpoint = e) = (h.log events').filter (·.event.endpoint = e) ∧
      (∀ before ev, ev.endpoint ≠ e → (h.run (before ++ [ev])).Alike e (h.run before)) ∧
      (h.run events).Alike e (h.run events') := by
  intro h
  have orderly : h.Orderly := idle_orderly
  obtain ⟨log, run⟩ := run_own orderly orderly (.refl e h) events
  obtain ⟨log', run'⟩ := run_own orderly orderly (.refl e h) events'
  rw [← same] at log' run'
  refine ⟨log.trans log'.symm, ?_, run.trans run'.symm⟩
  intro before ev other
  rw [run_concat]
  exact next_other (run_orderly orderly before) other

/-- A call that passes the guard, is answered and reports, all at one time. -/
def passage (c : ExchangeCall) (reply : c.Reply) : List Event :=
  [.begin c, .turn 0, .turn 0, .turn 0, .hear ⟨c, reply⟩, .turn 0].map (⟨0, c.endpoint, 0, ·⟩)

/-- A guard that opens a circuit at the first outage. -/
def touchy : Hub TokenBucket.limiter IdSource.counter where
  guard := {
    settings := { breaker := { failureThreshold := 1 }, retry := .noRetry }
    budget := { settings := {} } }
  knowsIds := false

/-- An outage that stops all price reads does not touch a read of the balance. -/
theorem outage_isolated :
    let prices := passage (.price "BTCUSDT") (.error (.transient "503"))
    let reading := passage .balance (.ok .hundred)
    (touchy.run (prices ++ reading)).guard.breakers.marketData.stateName = "open" ∧
      (touchy.run reading).guard.breakers.marketData.stateName = "closed" ∧
      (touchy.log reading).getLast?.bind (·.report.result) = some ⟨.balance, .ok .hundred⟩ ∧
      (touchy.log (prices ++ reading)).filter (·.event.endpoint = .account) =
        (touchy.log reading).filter (·.event.endpoint = .account) := by
  intro prices reading
  have same : (prices ++ reading).filter (·.endpoint = .account) =
      reading.filter (·.endpoint = .account) := rfl
  refine ⟨?_, ?_, ?_, (classes_isolated same).1⟩
  · with_unfolding_all rfl
  · with_unfolding_all rfl
  · with_unfolding_all rfl

end Hub

end Guarded

end FuturesDesk
