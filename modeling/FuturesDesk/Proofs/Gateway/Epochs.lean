import FuturesDesk.Proofs.Gateway.Cooldown
import FuturesDesk.Proofs.Gateway.History

/-! What is left of the time before a trip. For one cooldown after it nothing changes the breaker; and
no pass from before it counts ever again, so that a history tells the same without their late uses. -/
namespace FuturesDesk

namespace Breaker

variable {b after : Breaker} {a : Admission} {now : Nat} {unjudged : Prop}

theorem releaseProbe_outdated (outdated : a.epoch ≠ b.epoch) : b.releaseProbe a = b := by
  simp only [releaseProbe, ne_eq, outdated.symm, not_false_eq_true, if_true]

theorem record_outdated (outdated : a.epoch ≠ b.epoch) (c : BreakerConfig) (now : Nat)
    (failure : Option GatewayError) : b.record c now a failure = b := by
  simp only [record]
  split
  · simp only [recordFailure, ne_eq, outdated.symm, not_false_eq_true, if_true]
  · exact releaseProbe_outdated outdated
  · exact releaseProbe_outdated outdated
  · simp only [recordSuccess, ne_eq, outdated.symm, not_false_eq_true, if_true]

/-- Only a trip starts an epoch. -/
theorem Hears.epoch (hears : b.Hears now a unjudged after) :
    b.epoch ≤ after.epoch ∧ (Gate.trips b after = true →
      b.epoch < after.epoch ∧ after.phase = .opened now) := by
  cases hears with
  | ignored =>
    rw [Gate.trips_self]
    exact ⟨Nat.le_refl _, nofun⟩
  | settled => exact ⟨Nat.le_refl _, by simp [Gate.trips, isOpen]⟩
  | tripped => exact ⟨Nat.le_succ _, fun _ => ⟨Nat.lt_succ_self _, rfl⟩⟩
  | freed => exact ⟨Nat.le_refl _, by simp [Gate.trips, isOpen]⟩

theorem Acquires.not_trips {c : BreakerConfig} {answer : Option Admission}
    (acquires : b.Acquires c now after answer) : Gate.trips b after = false := by
  cases acquires with
  | passes => exact Gate.trips_self b
  | tries => simp [Gate.trips, isOpen]
  | triesAgain => simp [Gate.trips, isOpen]
  | cools => exact Gate.trips_self b
  | waits => exact Gate.trips_self b

end Breaker

namespace Gate

variable {c : BreakerConfig} {g : Gate} {e : Event} {events : List Event} {since : Nat}

/-- No pass is of a later epoch than the breaker, and one from before a trip is of an earlier one. -/
structure Dated (g : Gate) : Prop where
  epoch : ∀ i p, g.kept i = some p → p.admission.epoch ≤ g.breaker.epoch
  tripped : ∀ i p, g.kept i = some p → p.tripped = true → p.admission.epoch < g.breaker.epoch

theorem new_dated : Dated {} := ⟨nofun, nofun⟩

theorem next_dated (dated : g.Dated) : (g.next c e).Dated := by
  have ends := next_ends c g e
  generalize g.next c e = after at ends
  cases ends with
  | @acquired i b answer _ acquires =>
    obtain ⟨epoch, answered⟩ := acquires.epoch
    constructor
    · intro j p held
      rw [epoch]
      rcases Keyed.of_update held with ⟨_, granted⟩ | ⟨_, held⟩
      · obtain ⟨a, admitted, rfl⟩ := Option.map_eq_some_iff.mp granted
        exact Nat.le_of_eq (answered a admitted)
      · exact dated.epoch j p held
    · intro j p held tripped
      rw [epoch]
      rcases Keyed.of_update held with ⟨_, granted⟩ | ⟨_, held⟩
      · obtain ⟨a, _, rfl⟩ := Option.map_eq_some_iff.mp granted
        cases tripped
      · exact dated.tripped j p held tripped
  | heard _ hears =>
    obtain ⟨grows, trip⟩ := hears.epoch
    constructor
    · intro j p held
      obtain ⟨q, before, rfl⟩ := Option.map_eq_some_iff.mp held
      exact Nat.le_trans (dated.epoch j q before) grows
    · intro j p held tripped
      obtain ⟨q, before, rfl⟩ := Option.map_eq_some_iff.mp held
      rcases Bool.or_eq_true_iff.mp tripped with already | now
      · exact Nat.lt_of_lt_of_le (dated.tripped j q before already) grows
      · exact Nat.lt_of_le_of_lt (dated.epoch j q before) (trip now).1
  | unheld => exact dated

def Act.used? : Act → Option Nat
  | .acquire _ => none
  | .report i _ => some i
  | .release i => some i

/-- The event is a report or a release of a pass that was granted before a trip. -/
def Entry.late (x : Entry) : Bool := (x.event.act.used?.bind x.before.kept).any (·.tripped)

def timely (c : BreakerConfig) (g : Gate) (events : List Event) : List Event :=
  ((g.log c events).filter (! ·.late)).map Entry.event

theorem next_late (dated : g.Dated) (late : Entry.late ⟨e, g, g.next c e⟩ = true) :
    g.next c e = g := by
  fun_cases next with
  | case1 i act => simp [Entry.late, act, Act.used?] at late
  | case2 i failure act p held =>
    have tripped : p.tripped = true := by simpa [Entry.late, act, Act.used?, held] using late
    have outdated := Nat.ne_of_lt (dated.tripped i p held tripped)
    rw [Breaker.record_outdated outdated, turn_self]
  | case3 => rfl
  | case4 i act p held =>
    have tripped : p.tripped = true := by simpa [Entry.late, act, Act.used?, held] using late
    have outdated := Nat.ne_of_lt (dated.tripped i p held tripped)
    rw [Breaker.releaseProbe_outdated outdated, turn_self]
  | case5 => rfl

theorem log_late (dated : g.Dated) {x : Entry} (member : x ∈ g.log c events)
    (late : x.late = true) : x.after = x.before := by
  induction events generalizing g with
  | nil => cases member
  | cons first rest ih =>
    rcases List.mem_cons.mp member with rfl | member
    · exact next_late dated late
    · exact ih (next_dated dated) member

/-- A history without its late uses tells the same but for them. -/
theorem log_timely (dated : g.Dated) :
    g.log c (g.timely c events) = (g.log c events).filter (! ·.late) := by
  induction events generalizing g with
  | nil => rfl
  | cons first rest ih =>
    have later := ih (next_dated (c := c) (e := first) dated)
    cases late : Entry.late ⟨first, g, g.next c first⟩ with
    | true =>
      -- The late event leaves the gate alone, so that the rest starts from where it would without it.
      have same := next_late dated late
      rw [same] at late later
      simpa [timely, log, same, late] using later
    | false => simpa [timely, log, late] using later

/-- While an open circuit cools down, no event changes the breaker. -/
theorem next_opened (opened : g.breaker.phase = .opened since) (after : since ≤ e.now)
    (before : e.now < since + c.cooldown) : (g.next c e).breaker = g.breaker := by
  fun_cases next with
  | case1 => rw [Breaker.tryAcquire_opened opened after before]
  | case2 i failure act p => rw [turn_breaker, Breaker.record_opened opened]
  | case3 => rfl
  | case4 i act p => rw [turn_breaker, Breaker.releaseProbe_opened opened]
  | case5 => rfl

theorem log_opened (opened : g.breaker.phase = .opened since) (inOrder : InOrder events)
    (after : ∀ e ∈ events, since ≤ e.now) {x : Entry} (member : x ∈ g.log c events)
    (before : x.event.now < since + c.cooldown) :
    x.before.breaker = g.breaker ∧ x.after.breaker = g.breaker := by
  induction events generalizing g with
  | nil => cases member
  | cons first rest ih =>
    obtain ⟨earliest, inOrder⟩ := List.pairwise_cons.mp inOrder
    have cools := next_opened (c := c) opened (after first List.mem_cons_self)
    rcases List.mem_cons.mp member with rfl | member
    · exact ⟨rfl, cools before⟩
    · have later := earliest x.event (event_mem_of_mem_log member)
      have same := cools (Nat.lt_of_le_of_lt later before)
      rw [← same]
      exact ih (same ▸ opened) inOrder (fun e later => after e (List.mem_cons_of_mem _ later)) member

theorem opened_of_trips (trip : trips g.breaker (g.next c e).breaker = true) :
    (g.next c e).breaker.phase = .opened e.now := by
  have ends := next_ends c g e
  generalize g.next c e = after at ends trip
  cases ends with
  | acquired _ acquires =>
    rw [acquires.not_trips] at trip
    cases trip
  | heard _ hears => exact (hears.epoch.2 trip).2
  | unheld =>
    rw [trips_self] at trip
    cases trip

/-- From a trip until its cooldown is over, every later event finds and leaves the breaker as the
trip left it. -/
theorem log_cools (inOrder : InOrder events) :
    (g.log c events).Pairwise fun x y => trips x.before.breaker x.after.breaker = true →
      y.event.now < x.event.now + c.cooldown →
      (y.before.breaker.tryAcquire c y.event.now).2 = none ∧ y.after.breaker = y.before.breaker := by
  induction events generalizing g with
  | nil => exact .nil
  | cons first rest ih =>
    obtain ⟨earliest, inOrder⟩ := List.pairwise_cons.mp inOrder
    refine .cons ?_ (ih inOrder)
    intro y member trip before
    have opened := opened_of_trips trip
    have later := earliest y.event (event_mem_of_mem_log member)
    obtain ⟨found, left⟩ := log_opened opened inOrder earliest member before
    rw [found, left]
    exact ⟨congrArg Prod.snd (Breaker.tryAcquire_opened opened later before), rfl⟩

/-- What was admitted before a trip is of no account after it. For one cooldown every request is
refused and nothing changes the breaker; and a use of a pass from before a trip changes nothing at
any time, so that without all these uses the history has the same log in all else: the same answers
and the same states. -/
theorem late_uses_inert {c : BreakerConfig} {events : List Event} (inOrder : InOrder events) :
    ((log c {} events).Pairwise fun x y => trips x.before.breaker x.after.breaker = true →
      y.event.now < x.event.now + c.cooldown →
      (y.before.breaker.tryAcquire c y.event.now).2 = none ∧
        y.after.breaker = y.before.breaker) ∧
    (∀ x ∈ log c {} events, x.late = true → x.after = x.before) ∧
    log c {} (timely c {} events) = (log c {} events).filter (! ·.late) :=
  ⟨log_cools inOrder, fun _ member => log_late new_dated member, log_timely new_dated⟩

/-- Two calls are admitted and one of them trips the circuit. The other one reports a success during
the cooldown, a failure while the circuit is half-open and a release once it has closed; the history
without these three has the same log but for them, and ends closed. -/
theorem slow_call_inert :
    ∃ events, InOrder events ∧
      events.map (·.act) = [.acquire 0, .acquire 1, .report 1 (some (.transient "")), .report 0 none,
        .acquire 2, .acquire 3, .report 0 (some (.transient "")), .report 3 none, .release 0] ∧
      (timely { failureThreshold := 1 } {} events).length = 6 ∧
      log { failureThreshold := 1 } {} (timely { failureThreshold := 1 } {} events) =
        (log { failureThreshold := 1 } {} events).filter (! ·.late) ∧
      (run { failureThreshold := 1 } {} events).breaker = ⟨.closed [], 1, 1⟩ := by
  let events : List Event := [⟨0, .acquire 0⟩, ⟨0, .acquire 1⟩,
    ⟨10, .report 1 (some (.transient ""))⟩, ⟨20, .report 0 none⟩, ⟨30009, .acquire 2⟩,
    ⟨30010, .acquire 3⟩, ⟨30020, .report 0 (some (.transient ""))⟩, ⟨30030, .report 3 none⟩,
    ⟨30040, .release 0⟩]
  have inOrder : InOrder events := by
    simp [InOrder, events]
  refine ⟨events, inOrder, rfl, ?_, (late_uses_inert inOrder).2.2, ?_⟩
  · decide +kernel
  · decide +kernel

end Gate

end FuturesDesk
