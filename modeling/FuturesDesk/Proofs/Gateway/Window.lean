import Mathlib.Data.List.DropRight
import FuturesDesk.Proofs.Gateway.Cooldown
import FuturesDesk.Proofs.Gateway.History

/-! When outages open a circuit. The breaker drops outages from its memory only when a new one comes,
and only from the front; what it remembers is nevertheless enough to tell how many outages of the
closed phase lie within the window before each new one. -/
namespace FuturesDesk

/-- A time lies in the window up to another one, both ends included. -/
def BreakerConfig.covers (c : BreakerConfig) (now t : Nat) : Bool := t ≤ now ∧ now ≤ t + c.window

namespace Breaker

variable {c : BreakerConfig} {b : Breaker} {now : Nat} {a : Admission} {times failures : List Nat}

theorem releaseProbe_closed (closed : b.phase = .closed failures) (a : Admission) :
    b.releaseProbe a = b := by
  simp only [releaseProbe, closed, ite_self]

theorem tryAcquire_closed (closed : b.phase = .closed failures) (now : Nat) :
    (b.tryAcquire c now).1 = b := by
  simp only [tryAcquire, closed]

/-- What a report does to a closed circuit: only an outage of the present epoch counts. -/
theorem record_closed (closed : b.phase = .closed failures) (now : Nat) (a : Admission)
    (failure : Option GatewayError) :
    b.record c now a failure =
      if failure.any (·.indicatesOutage) ∧ a.epoch = b.epoch then
        if c.failureThreshold ≤ (recentFailures c now failures).length then b.trip now
        else { b with phase := .closed (recentFailures c now failures) }
      else b := by
  have outage : b.recordFailure c now a = if a.epoch = b.epoch then
        if c.failureThreshold ≤ (recentFailures c now failures).length then b.trip now
        else { b with phase := .closed (recentFailures c now failures) }
      else b := by
    simp only [recordFailure, closed, ne_eq, ite_not, eq_comm (a := b.epoch)]
  have answered : b.recordSuccess a = b := by simp only [recordSuccess, closed, ite_self]
  rcases failure with _ | (_ | _ | _ | _ | _) <;>
    simp [record, GatewayError.indicatesOutage, outage, releaseProbe_closed closed, answered]

theorem phase_ne_closed (before : b.isClosed = false) (failures : List Nat) :
    b.phase ≠ .closed failures := by
  intro closed
  rw [isClosed_iff.mpr ⟨failures, closed⟩] at before
  cases before

theorem releaseProbe_not_closed (before : b.isClosed = false) (a : Admission) (failures : List Nat) :
    (b.releaseProbe a).phase ≠ .closed failures := by
  cases phase : b.phase with
  | closed => simp [isClosed, phase] at before
  | opened since => simp [releaseProbe_opened phase, phase]
  | halfOpen since probe =>
    by_cases current : a.epoch = b.epoch
    · simp [releaseProbe_halfOpen phase current]
    · simp [releaseProbe, phase, eq_comm, current]

theorem tryAcquire_not_closed (before : b.isClosed = false) (now : Nat) (failures : List Nat) :
    (b.tryAcquire c now).1.phase ≠ .closed failures := by
  have acquires := b.tryAcquire_acquires c now
  generalize (b.tryAcquire c now).2 = answer at acquires
  generalize (b.tryAcquire c now).1 = after at acquires
  cases acquires with
  | passes => exact phase_ne_closed before failures
  | tries => exact nofun
  | triesAgain => exact nofun
  | cools => exact phase_ne_closed before failures
  | waits => exact phase_ne_closed before failures

/-- A circuit closes from half-open only, and remembers no outage then. -/
theorem record_closes (before : b.isClosed = false)
    {failure : Option GatewayError} (closes : (b.record c now a failure).phase = .closed failures) :
    b.isHalfOpen = true ∧ failures = [] := by
  cases phase : b.phase with
  | closed => simp [isClosed, phase] at before
  | opened since =>
    rw [record_opened phase, phase] at closes
    cases closes
  | halfOpen since probe =>
    refine ⟨isHalfOpen_iff.mpr ⟨since, probe, phase⟩, ?_⟩
    have failed : (b.recordFailure c now a).phase ≠ .closed failures := by
      simp only [recordFailure, phase]
      split <;> simp [phase, trip]
    have released := releaseProbe_not_closed before a failures
    have answered : (b.recordSuccess a).phase = .closed failures → failures = [] := by
      simp only [recordSuccess, phase]
      split <;> simp [phase, eq_comm]
    simp only [record] at closes
    split at closes
    · exact absurd closes failed
    · exact absurd closes released
    · exact absurd closes released
    · exact answered closes

/-- In a list in order, the times before the window stand in front. -/
theorem dropWhile_eq_filter_covers {l : List Nat} (sorted : l.Pairwise (· ≤ ·))
    (past : ∀ t ∈ l, t ≤ now) :
    l.dropWhile (fun t => c.window < now - t) = l.filter (c.covers now) := by
  induction l with
  | nil => rfl
  | cons t rest ih =>
    obtain ⟨first, sorted⟩ := List.pairwise_cons.mp sorted
    have reached := past t List.mem_cons_self
    have pastRest : ∀ u ∈ rest, u ≤ now := fun u member => past u (List.mem_cons_of_mem t member)
    by_cases expired : c.window < now - t
    · have out : c.covers now t = false := by
        simp only [BreakerConfig.covers, decide_eq_false_iff_not]
        omega
      rw [List.dropWhile_cons_of_pos (by simpa using expired), List.filter_cons_of_neg (by simp [out])]
      exact ih sorted pastRest
    · have all : ∀ u ∈ t :: rest, c.covers now u = true := by
        intro u member
        have later : t ≤ u := by
          rcases List.mem_cons.mp member with rfl | member
          · exact Nat.le_refl _
          · exact first u member
        have before := past u member
        simp only [BreakerConfig.covers, decide_eq_true_eq]
        omega
      rw [List.dropWhile_cons_of_neg (by simpa using expired), List.filter_eq_self.mpr all]

/-- What is remembered at a time tells of some outages as much as any window from then on shows. -/
structure Remembers (c : BreakerConfig) (now : Nat) (times failures : List Nat) : Prop where
  sorted : failures.Pairwise (· ≤ ·)
  past : ∀ t ∈ failures, t ≤ now
  shows : ∀ later, now ≤ later → failures.filter (c.covers later) = times.filter (c.covers later)

namespace Remembers

theorem nil : Remembers c now [] [] := ⟨.nil, nofun, fun _ _ => rfl⟩

theorem later {then_ : Nat} (remembers : Remembers c now times failures) (passes : now ≤ then_) :
    Remembers c then_ times failures where
  sorted := remembers.sorted
  past t member := Nat.le_trans (remembers.past t member) passes
  shows later after := remembers.shows later (Nat.le_trans passes after)

theorem extended (remembers : Remembers c now times failures) :
    (failures ++ [now]).Pairwise (· ≤ ·) ∧ ∀ t ∈ failures ++ [now], t ≤ now := by
  constructor
  · refine List.pairwise_append.mpr ⟨remembers.sorted, List.pairwise_singleton _ _, ?_⟩
    rintro t member _ only
    rw [List.mem_singleton.mp only]
    exact remembers.past t member
  · intro t member
    rcases List.mem_append.mp member with old | new
    · exact remembers.past t old
    · exact Nat.le_of_eq (List.mem_singleton.mp new)

theorem recent (remembers : Remembers c now times failures) :
    recentFailures c now failures = (failures ++ [now]).filter (c.covers now) :=
  dropWhile_eq_filter_covers remembers.extended.1 remembers.extended.2

/-- One more outage is remembered, and what its window does not reach is dropped. -/
theorem push (remembers : Remembers c now times failures) :
    Remembers c now (times ++ [now]) (recentFailures c now failures) := by
  obtain ⟨sorted, past⟩ := remembers.extended
  rw [remembers.recent]
  refine ⟨sorted.filter _, fun t member => past t (List.mem_of_mem_filter member), ?_⟩
  intro later after
  -- What a later window shows of the times so far, the window of today shows as well.
  have shown : ∀ t ∈ failures ++ [now],
      (c.covers later t && c.covers now t) = c.covers later t := by
    intro t member
    have before := past t member
    simp only [BreakerConfig.covers, Bool.and_eq_left_iff_imp, decide_eq_true_eq]
    omega
  rw [List.filter_filter, List.filter_congr shown, List.filter_append, List.filter_append,
    remembers.shows later after]

theorem length_recent (remembers : Remembers c now times failures) :
    (recentFailures c now failures).length = (times ++ [now]).countP (c.covers now) := by
  rw [remembers.recent, List.countP_eq_length_filter, List.filter_append, List.filter_append,
    remembers.shows now (Nat.le_refl _)]

end Remembers

end Breaker

namespace Gate

variable {c : BreakerConfig} {g : Gate} {e : Event} {events : List Event} {failures : List Nat}

/-- The event reports an outage to a closed circuit, on an admission of the present epoch. -/
def outage (g : Gate) (e : Event) : Bool :=
  match e.act with
  | .report i failure => g.breaker.isClosed && failure.any (·.indicatesOutage) &&
      (g.kept i).any (·.admission.epoch = g.breaker.epoch)
  | _ => false

def Entry.recovers (x : Entry) : Bool := x.before.breaker.isHalfOpen && x.after.breaker.isClosed

/-- What has happened since the circuit last recovered, or since the beginning. -/
def sinceRecovery (l : List Entry) : List Entry := l.rtakeWhile (! ·.recovers)

/-- How many outages since the last recovery lie in the window up to a time. -/
def outagesWithin (c : BreakerConfig) (now : Nat) (l : List Entry) : Nat :=
  (sinceRecovery l).countP fun x => outage x.before x.event && c.covers now x.event.now

theorem next_closed (closed : g.breaker.phase = .closed failures) :
    (g.next c e).breaker =
      if outage g e then
        if c.failureThreshold ≤ (Breaker.recentFailures c e.now failures).length then
          g.breaker.trip e.now
        else { g.breaker with phase := .closed (Breaker.recentFailures c e.now failures) }
      else g.breaker := by
  have isClosed : g.breaker.isClosed = true := Breaker.isClosed_iff.mpr ⟨failures, closed⟩
  fun_cases next with
  | case1 i act => simp [outage, act, Breaker.tryAcquire_closed closed]
  | case2 i failure act p held =>
    simp [outage, act, held, isClosed, Breaker.record_closed closed]
  | case3 i failure act unheld => simp [outage, act, unheld]
  | case4 i act => simp [outage, act, Breaker.releaseProbe_closed closed]
  | case5 i act => simp [outage, act]

theorem next_closes (before : g.breaker.isClosed = false)
    (closes : (g.next c e).breaker.phase = .closed failures) :
    g.breaker.isHalfOpen = true ∧ failures = [] := by
  revert closes
  fun_cases next with
  | case1 => exact fun closes => absurd closes (Breaker.tryAcquire_not_closed before e.now failures)
  | case2 => exact Breaker.record_closes before
  | case3 => exact fun closes => absurd closes (Breaker.phase_ne_closed before failures)
  | case4 i act p =>
    exact fun closes => absurd closes (Breaker.releaseProbe_not_closed before p.admission failures)
  | case5 => exact fun closes => absurd closes (Breaker.phase_ne_closed before failures)

def outageTimes (l : List Entry) : List Nat :=
  ((sinceRecovery l).filter fun x => outage x.before x.event).map (·.event.now)

theorem outagesWithin_eq (now : Nat) (l : List Entry) :
    outagesWithin c now l = (outageTimes l).countP (c.covers now) := by
  rw [outageTimes, List.countP_map, List.countP_filter, outagesWithin]
  refine List.countP_congr ?_
  simp [and_comm]

/-- An event that finds the circuit closed is in the same phase as what came before it. -/
theorem outageTimes_concat (l : List Entry) {x : Entry}
    (closed : x.before.breaker.phase = .closed failures) :
    outageTimes (l ++ [x]) =
      outageTimes l ++ if outage x.before x.event then [x.event.now] else [] := by
  have continues : x.recovers = false := by
    simp only [Entry.recovers, Breaker.isHalfOpen, closed, Bool.false_and]
  rw [outageTimes, sinceRecovery, List.rtakeWhile_concat_pos _ _ _ (by simp [continues])]
  cases counts : outage x.before x.event <;> simp [outageTimes, sinceRecovery, counts]

/-- A closed circuit remembers its outages since it last recovered. -/
theorem run_remembers {now : Nat} (inOrder : InOrder events) (past : ∀ e ∈ events, e.now ≤ now)
    (closed : (run c {} events).breaker.phase = .closed failures) :
    Breaker.Remembers c now (outageTimes (log c {} events)) failures := by
  induction events using List.reverseRecOn generalizing now failures with
  | nil =>
    cases closed
    exact .nil
  | append_singleton events e ih =>
    obtain ⟨inOrder, _, ordered⟩ := List.pairwise_append.mp inOrder
    have earlier : ∀ d ∈ events, d.now ≤ e.now :=
      fun d member => ordered d member e List.mem_cons_self
    have reached : e.now ≤ now := past e (by simp)
    rw [run_concat] at closed
    rw [log_concat]
    cases before : (run c {} events).breaker.isClosed with
    | false =>
      -- The event is a recovery: the phase begins after it, and nothing is remembered.
      obtain ⟨halfOpen, rfl⟩ := next_closes before closed
      have recovers : Entry.recovers ⟨e, run c {} events, (run c {} events).next c e⟩ = true := by
        rw [Entry.recovers, halfOpen, Breaker.isClosed_iff.mpr ⟨_, closed⟩, Bool.and_self]
      rw [outageTimes, sinceRecovery, List.rtakeWhile_concat_neg _ _ _ (by simp [recovers])]
      exact .nil
    | true =>
      obtain ⟨remembered, phase⟩ := Breaker.isClosed_iff.mp before
      have remembers := ih inOrder earlier phase
      rw [outageTimes_concat _ phase]
      rw [next_closed phase] at closed
      cases counts : outage (run c {} events) e with
      | false =>
        simp only [counts, Bool.false_eq_true, if_false] at closed ⊢
        rw [List.append_nil]
        cases phase.symm.trans closed
        exact remembers.later reached
      | true =>
        simp only [counts, if_true] at closed ⊢
        split at closed
        · cases closed
        · cases closed
          exact remembers.push.later reached

/-- An outage opens the circuit exactly if it and the outages since the last recovery that lie in the
window up to it are as many as the threshold. Nothing else that happens while the circuit is closed
counts for anything: a success, a refusal of another kind, an admission of another epoch, a request. -/
theorem opens_iff_outages_reach_threshold {c : BreakerConfig} {events : List Event} {e : Event}
    {g : Gate} (inOrder : InOrder (events ++ [e])) (reached : run c {} events = g)
    (closed : g.breaker.isClosed = true) :
    (outage g e = true →
      ((g.next c e).breaker.isOpen = true ↔
        c.failureThreshold ≤ outagesWithin c e.now (log c {} (events ++ [e]))) ∧
      ((g.next c e).breaker.isOpen = false → (g.next c e).breaker.isClosed = true)) ∧
    (outage g e = false → (g.next c e).breaker = g.breaker ∧
      ∀ now, outagesWithin c now (log c {} (events ++ [e])) =
        outagesWithin c now (log c {} events)) := by
  subst reached
  obtain ⟨failures, phase⟩ := Breaker.isClosed_iff.mp closed
  obtain ⟨inOrder, _, ordered⟩ := List.pairwise_append.mp inOrder
  have remembers := run_remembers inOrder
    (fun d member => ordered d member e List.mem_cons_self) phase
  have counted := outageTimes_concat (log c {} events)
    (x := ⟨e, run c {} events, (run c {} events).next c e⟩) phase
  simp only [log_concat, outagesWithin_eq, counted, next_closed phase]
  constructor
  · intro counts
    simp only [counts, if_true, ← remembers.length_recent]
    split
    case isTrue reaches => simp [Breaker.trip, Breaker.isOpen, reaches]
    case isFalse short => simp [Breaker.isOpen, Breaker.isClosed, short]
  · intro counts
    simp only [counts, Bool.false_eq_true, if_false, List.append_nil, implies_true, and_self]

/-- With a threshold of two, an outage at either end of a window of a minute opens the circuit, and
one a millisecond later does not. -/
theorem window_includes_both_ends :
    ∃ g, run { failureThreshold := 2 } {} [⟨0, .acquire 0⟩, ⟨0, .acquire 1⟩,
        ⟨0, .report 0 (some (.transient ""))⟩] = g ∧
      g.breaker.isClosed = true ∧
      (g.next { failureThreshold := 2 } ⟨60000, .report 1 (some (.transient ""))⟩).breaker.isOpen =
        true ∧
      (g.next { failureThreshold := 2 } ⟨60001, .report 1 (some (.transient ""))⟩).breaker.isOpen =
        false := by
  have inOrder (now : Nat) : InOrder ([⟨0, .acquire 0⟩, ⟨0, .acquire 1⟩,
      ⟨0, .report 0 (some (.transient ""))⟩] ++ [⟨now, .report 1 (some (.transient ""))⟩]) := by
    simp [InOrder]
  have closed : (run { failureThreshold := 2 } {} [⟨0, .acquire 0⟩, ⟨0, .acquire 1⟩,
      ⟨0, .report 0 (some (.transient ""))⟩]).breaker.isClosed = true := by decide +kernel
  have opens (now : Nat) :=
    ((opens_iff_outages_reach_threshold (inOrder now) rfl closed).1 rfl).1
  refine ⟨_, rfl, closed, (opens 60000).mpr (by decide +kernel), ?_⟩
  exact Bool.eq_false_iff.mpr (mt (opens 60001).mp (by decide +kernel))

end Gate

end FuturesDesk
