import FuturesDesk.Proofs.Gateway.Callers
import FuturesDesk.Proofs.Program.Conversation
import FuturesDesk.Gateway.Guarded

/-! The history of a breaker. Callers keep the admissions that they are granted, and use each at any
later time, once, again or never. The log of a history tells how things stood before and after every
event. However calls get lost, come late or are refused a token, the breaker admits a call again one
cooldown after the last event. -/
namespace FuturesDesk

namespace Breaker

def isClosed (b : Breaker) : Bool :=
  match b.phase with
  | .closed _ => true
  | _ => false

def isOpen (b : Breaker) : Bool :=
  match b.phase with
  | .opened _ => true
  | _ => false

def isHalfOpen (b : Breaker) : Bool :=
  match b.phase with
  | .halfOpen _ _ => true
  | _ => false

/-- The outages that the breaker remembers; only a closed circuit remembers any. -/
def failures (b : Breaker) : List Nat :=
  match b.phase with
  | .closed failures => failures
  | _ => []

/-- The breaker remembers no time that a cooldown has not passed since. -/
def Rested (c : BreakerConfig) (now : Nat) (b : Breaker) : Prop :=
  match b.phase with
  | .closed _ => True
  | .opened since => since + c.cooldown ≤ now
  | .halfOpen _ probe => ∀ started ∈ probe, started + c.cooldown ≤ now

variable {c : BreakerConfig} {now at_ : Nat} {a : Admission} {b after : Breaker}

theorem isClosed_iff : b.isClosed = true ↔ ∃ failures, b.phase = .closed failures := by
  cases phase : b.phase <;> simp [isClosed, phase]

theorem isHalfOpen_iff :
    b.isHalfOpen = true ↔ ∃ since probe, b.phase = .halfOpen since probe := by
  cases phase : b.phase <;> simp [isHalfOpen, phase]

theorem Acquires.admits {answer : Option Admission} (acquires : b.Acquires c now after answer)
    (rested : b.Rested c now) : answer = some ⟨b.epoch⟩ := by
  cases acquires with
  | passes => rfl
  | tries => rfl
  | triesAgain => rfl
  | @cools since opened cooling =>
    simp only [Rested, opened] at rested
    omega
  | @waits since started halfOpen young =>
    simp only [Rested, halfOpen, Option.mem_def, Option.some.injEq, forall_eq'] at rested
    omega

theorem Acquires.rested {answer : Option Admission} (acquires : b.Acquires c at_ after answer)
    (before : at_ + c.cooldown ≤ now) (rested : b.Rested c now) : after.Rested c now := by
  cases acquires with
  | passes => exact rested
  | tries =>
    rintro _ ⟨⟩
    exact before
  | triesAgain =>
    rintro _ ⟨⟩
    exact before
  | cools => exact rested
  | waits => exact rested

theorem Hears.rested {unjudged : Prop} (hears : b.Hears at_ a unjudged after)
    (before : at_ + c.cooldown ≤ now) (rested : b.Rested c now) : after.Rested c now := by
  cases hears with
  | ignored => exact rested
  | settled => exact trivial
  | tripped => exact before
  | freed => exact nofun

end Breaker

/-- An admission that a caller keeps, and whether the circuit has tripped since it was granted. -/
structure Pass where
  admission : Admission
  tripped : Bool

/-- A breaker, and the passes that its callers keep under numbers of their own. -/
structure Gate where
  breaker : Breaker := {}
  kept : Nat → Option Pass := fun _ => none

namespace Gate

inductive Act where
  | acquire (number : Nat)
  | report (number : Nat) (failure : Option GatewayError)
  | release (number : Nat)

def Act.HandsBack (number : Nat) : Act → Prop
  | .acquire _ => False
  | .report i failure => i = number ∧ Breaker.Unjudged failure
  | .release i => i = number

structure Event where
  now : Nat
  act : Act

def trips (before after : Breaker) : Bool := !before.isOpen && after.isOpen

/-- The gate after its breaker heard a report or a release. A trip marks every pass. -/
def turn (g : Gate) (b : Breaker) : Gate where
  breaker := b
  kept i := (g.kept i).map fun p => { p with tripped := p.tripped || trips g.breaker b }

/-- The gate after an event. Admissions come from the breaker only: a number without a pass has
nothing to report or to release. -/
def next (c : BreakerConfig) (g : Gate) (e : Event) : Gate :=
  match e.act with
  | .acquire i =>
    ⟨(g.breaker.tryAcquire c e.now).1,
      Function.update g.kept i ((g.breaker.tryAcquire c e.now).2.map (⟨·, false⟩))⟩
  | .report i failure =>
    match g.kept i with
    | some p => g.turn (g.breaker.record c e.now p.admission failure)
    | none => g
  | .release i =>
    match g.kept i with
    | some p => g.turn (g.breaker.releaseProbe p.admission)
    | none => g

/-- The clock does not go back. -/
def InOrder (events : List Event) : Prop := events.Pairwise fun d e => d.now ≤ e.now

def run (c : BreakerConfig) (g : Gate) (events : List Event) : Gate := events.foldl (next c) g

structure Entry where
  event : Event
  before : Gate
  after : Gate

def log (c : BreakerConfig) (g : Gate) : List Event → List Entry
  | [] => []
  | e :: rest => ⟨e, g, g.next c e⟩ :: log c (g.next c e) rest

variable {c : BreakerConfig} {g : Gate} {e : Event} {i : Nat} {p : Pass}

theorem run_concat (events : List Event) : g.run c (events ++ [e]) = (g.run c events).next c e :=
  List.foldl_concat ..

theorem log_concat (events : List Event) :
    g.log c (events ++ [e]) =
      g.log c events ++ [⟨e, g.run c events, (g.run c events).next c e⟩] := by
  induction events generalizing g with
  | nil => rfl
  | cons first rest ih => exact congrArg (_ :: ·) ih

theorem map_event_log (events : List Event) : (g.log c events).map Entry.event = events := by
  induction events generalizing g with
  | nil => rfl
  | cons first rest ih => exact congrArg (first :: ·) ih

theorem event_mem_of_mem_log {x : Entry} {events : List Event} (member : x ∈ g.log c events) :
    x.event ∈ events := by
  rw [← map_event_log (c := c) (g := g) events]
  exact List.mem_map_of_mem member

@[simp] theorem turn_breaker (b : Breaker) : (g.turn b).breaker = b := rfl

theorem trips_self (b : Breaker) : trips b b = false := by
  cases open_ : b.isOpen <;> simp [trips, open_]

theorem turn_self : g.turn g.breaker = g := by
  obtain ⟨b, kept⟩ := g
  simp only [turn, trips_self, Bool.or_false, Option.map_id']

inductive Ends (c : BreakerConfig) (g : Gate) (e : Event) : Gate → Prop where
  | acquired {i : Nat} {b : Breaker} {answer : Option Admission} (act : e.act = .acquire i)
      (acquires : g.breaker.Acquires c e.now b answer) :
      Ends c g e ⟨b, Function.update g.kept i (answer.map (⟨·, false⟩))⟩
  | heard {i : Nat} {p : Pass} {b : Breaker} (held : g.kept i = some p)
      (hears : g.breaker.Hears e.now p.admission (e.act.HandsBack i) b) : Ends c g e (g.turn b)
  | unheld : Ends c g e g

theorem next_ends (c : BreakerConfig) (g : Gate) (e : Event) : g.Ends c e (g.next c e) := by
  fun_cases next with
  | case1 i act => exact .acquired act (g.breaker.tryAcquire_acquires c e.now)
  | case2 i failure act p held =>
    have hears := g.breaker.record_hears c e.now p.admission failure
    refine .heard held ?_
    simpa only [act, Act.HandsBack, true_and] using hears
  | case3 => exact .unheld
  | case4 i act p held =>
    have handsBack : e.act.HandsBack i := by simp only [act, Act.HandsBack]
    exact .heard held (g.breaker.releaseProbe_hears e.now p.admission handsBack)
  | case5 => exact .unheld

theorem next_rested {now : Nat} (before : e.now + c.cooldown ≤ now)
    (rested : g.breaker.Rested c now) : (g.next c e).breaker.Rested c now := by
  have ends := next_ends c g e
  generalize g.next c e = after at ends
  cases ends with
  | acquired _ acquires => exact acquires.rested before rested
  | heard _ hears => exact hears.rested before rested
  | unheld => exact rested

theorem run_rested {now : Nat} {events : List Event}
    (before : ∀ e ∈ events, e.now + c.cooldown ≤ now) (rested : g.breaker.Rested c now) :
    (g.run c events).breaker.Rested c now := by
  induction events generalizing g with
  | nil => exact rested
  | cons first rest ih =>
    have later := next_rested (before first List.mem_cons_self) rested
    exact ih (fun e member => before e (List.mem_cons_of_mem first member)) later

/-- What the hand-back of a pass of the present epoch leaves of a half-open circuit. -/
theorem next_handsBack {since : Nat} {probe : Option Nat}
    (halfOpen : g.breaker.phase = .halfOpen since probe) (held : g.kept i = some p)
    (current : p.admission.epoch = g.breaker.epoch) (handsBack : e.act.HandsBack i) :
    (g.next c e).breaker = { g.breaker with phase := .halfOpen since none } := by
  have released := Breaker.releaseProbe_halfOpen halfOpen current
  obtain ⟨now, act⟩ := e
  cases act with
  | acquire => exact handsBack.elim
  | report j failure =>
    obtain ⟨rfl, unjudged⟩ := handsBack
    simp only [next, held, turn_breaker, Breaker.record_unjudged unjudged, released]
  | release j =>
    obtain rfl : j = i := handsBack
    simp only [next, held, turn_breaker, released]

end Gate

/-- An attempt that gets an admission and no token hands the admission back. -/
theorem Guarded.attempt_hands_back {call : ExchangeCall} {reply : call.Reply}
    {talk : List (Program.Exchange Guarded.Step.Reply)} {failure : GatewayError}
    (ended : (Guarded.attempt call).Yields talk reply)
    (refused : ⟨.guard (.takeToken call.endpoint), .error failure⟩ ∈ talk) :
    ∃ admission, talk = [⟨.guard (.acquire call.endpoint), some admission⟩,
      ⟨.guard (.takeToken call.endpoint), .error failure⟩,
      ⟨.guard (.release call.endpoint admission), ()⟩] := by
  obtain ⟨_ | admission, _, rfl, ended⟩ := ended
  · obtain ⟨rfl, _⟩ := ended
    simp at refused
  · obtain ⟨e | ⟨⟩, _, rfl, ended⟩ := ended
    · obtain ⟨_, _, rfl, rfl, _⟩ := ended
      simp at refused
      exact ⟨admission, by rw [refused]⟩
    · obtain ⟨answer, _, rfl, _, _, rfl, rfl, _⟩ := ended
      simp at refused

namespace Gate

/-- Nothing locks the callers out. Whatever has happened, a call is admitted a cooldown after the last
event; and once a pass of the present epoch was handed back, as an attempt does that gets no token,
the next call is admitted at once and nothing else has changed. -/
theorem admits_again {c : BreakerConfig} {events : List Event} {g : Gate}
    (reached : run c {} events = g) :
    (∀ now, (∀ e ∈ events, e.now + c.cooldown ≤ now) →
      (g.breaker.tryAcquire c now).2 = some ⟨g.breaker.epoch⟩) ∧
    (∀ i p e, g.breaker.isHalfOpen = true → g.kept i = some p →
      p.admission.epoch = g.breaker.epoch → e.act.HandsBack i →
      (∀ now, ((g.next c e).breaker.tryAcquire c now).2 = some ⟨g.breaker.epoch⟩) ∧
        (g.next c e).breaker.epoch = g.breaker.epoch ∧
        (g.next c e).breaker.failures = g.breaker.failures ∧
        (g.next c e).breaker.totalOpens = g.breaker.totalOpens) ∧
    ∀ (call : ExchangeCall) talk reply failure, (Guarded.attempt call).Yields talk reply →
      ⟨.guard (.takeToken call.endpoint), .error failure⟩ ∈ talk →
      ∃ admission, talk = [⟨.guard (.acquire call.endpoint), some admission⟩,
        ⟨.guard (.takeToken call.endpoint), .error failure⟩,
        ⟨.guard (.release call.endpoint admission), ()⟩] := by
  refine ⟨?cooled, ?freed, fun _ _ _ _ => Guarded.attempt_hands_back⟩
  case cooled =>
    intro now before
    have rested : g.breaker.Rested c now := reached ▸ run_rested before trivial
    exact (g.breaker.tryAcquire_acquires c now).admits rested
  case freed =>
    intro i p e halfOpen held current handsBack
    obtain ⟨since, probe, halfOpen⟩ := Breaker.isHalfOpen_iff.mp halfOpen
    rw [next_handsBack halfOpen held current handsBack]
    refine ⟨?_, rfl, ?_, rfl⟩
    · intro now
      exact (Breaker.tryAcquire_acquires _ c now).admits nofun
    · simp only [Breaker.failures, halfOpen]

/-- A trial that gets lost keeps its slot for one cooldown and no longer; one that is handed back
leaves it at once. -/
theorem lost_trial_admits_again :
    ∃ g, run { failureThreshold := 1 } {} [⟨0, .acquire 0⟩, ⟨0, .report 0 (some (.transient ""))⟩,
        ⟨30000, .acquire 1⟩] = g ∧
      (g.breaker.tryAcquire { failureThreshold := 1 } 59999).2 = none ∧
      (g.breaker.tryAcquire { failureThreshold := 1 } 60000).2 = some ⟨g.breaker.epoch⟩ ∧
      ((g.next { failureThreshold := 1 } ⟨30001, .release 1⟩).breaker.tryAcquire
        { failureThreshold := 1 } 30001).2 = some ⟨g.breaker.epoch⟩ := by
  refine ⟨_, rfl, by decide +kernel, ?lost, ?handedBack⟩
  case lost => exact (admits_again rfl).1 60000 (by decide +kernel)
  case handedBack =>
    exact ((admits_again rfl).2.1 1 ⟨⟨1⟩, false⟩ ⟨30001, .release 1⟩ (by decide +kernel) rfl
      (by decide +kernel) rfl).1 30001

end Gate

end FuturesDesk
