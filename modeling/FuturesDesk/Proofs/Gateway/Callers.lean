import FuturesDesk.Gateway.Breaker
import FuturesDesk.Proofs.Keyed

/-! A breaker among its callers. Any number of calls ask one breaker for admission and report in any
order, each admission once at most and at any later time; one that is dropped never reports. What an
admission and a report can do to a breaker is said here once, with every guard. -/
namespace FuturesDesk

namespace Breaker

inductive Acquires (c : BreakerConfig) (now : Nat) (b : Breaker) : Breaker → Option Admission → Prop
    where
  | passes {failures} (closed : b.phase = .closed failures) : Acquires c now b b (some ⟨b.epoch⟩)
  | tries {since} (opened : b.phase = .opened since) (cooled : c.cooldown ≤ now - since) :
      Acquires c now b { b with phase := .halfOpen since (some now) } (some ⟨b.epoch⟩)
  | triesAgain {since probe} (halfOpen : b.phase = .halfOpen since probe)
      (free : ∀ started ∈ probe, c.cooldown ≤ now - started) :
      Acquires c now b { b with phase := .halfOpen since (some now) } (some ⟨b.epoch⟩)
  | cools {since} (opened : b.phase = .opened since) (cooling : now - since < c.cooldown) :
      Acquires c now b b none
  | waits {since started} (halfOpen : b.phase = .halfOpen since (some started))
      (young : now - started < c.cooldown) : Acquires c now b b none

theorem tryAcquire_acquires (b : Breaker) (c : BreakerConfig) (now : Nat) :
    Acquires c now b (b.tryAcquire c now).1 (b.tryAcquire c now).2 := by
  cases phase : b.phase with
  | closed failures =>
    simp only [tryAcquire, phase]
    exact .passes phase
  | opened since =>
    simp only [tryAcquire, phase, cooledDown, decide_eq_true_iff]
    split
    case isTrue cooled => exact .tries phase cooled
    case isFalse cooling => exact .cools phase (Nat.not_le.mp cooling)
  | halfOpen since probe =>
    cases probe with
    | none =>
      simp only [tryAcquire, phase]
      exact .triesAgain phase nofun
    | some started =>
      simp only [tryAcquire, phase, cooledDown, Option.all_some, decide_eq_true_iff]
      split
      case isTrue cooled =>
        refine .triesAgain phase ?_
        rintro _ ⟨⟩
        exact cooled
      case isFalse young => exact .waits phase (Nat.not_le.mp young)

/-- No request starts an epoch, and every admission is one of the present epoch. -/
theorem Acquires.epoch {c : BreakerConfig} {now : Nat} {b after : Breaker}
    {answer : Option Admission} (acquires : b.Acquires c now after answer) :
    after.epoch = b.epoch ∧ ∀ a, answer = some a → a.epoch = b.epoch := by
  cases acquires with
  | cools => exact ⟨rfl, nofun⟩
  | waits => exact ⟨rfl, nofun⟩
  | _ =>
    refine ⟨rfl, ?_⟩
    rintro _ ⟨⟩
    rfl

/-- A circuit that is open after a request was open before it and refused. -/
theorem Acquires.refused {c : BreakerConfig} {now since : Nat} {b after : Breaker}
    {answer : Option Admission} (acquires : b.Acquires c now after answer)
    (opened : after.phase = .opened since) : answer = none ∧ after = b := by
  cases acquires with
  | passes closed =>
    rw [closed] at opened
    cases opened
  | tries => cases opened
  | triesAgain => cases opened
  | cools => exact ⟨rfl, rfl⟩
  | waits => exact ⟨rfl, rfl⟩

/-- Whether a call that ended so says nothing about its endpoint. -/
def Unjudged : Option GatewayError → Prop
  | some (.rateLimited _) => True
  | some (.circuitOpen _) => True
  | _ => False

/-- What a report or a release of an admission leaves; `unjudged` tells that it judges nothing. -/
inductive Hears (now : Nat) (a : Admission) (unjudged : Prop) (b : Breaker) : Breaker → Prop where
  | ignored : Hears now a unjudged b b
  | settled {failures} (current : a.epoch = b.epoch) :
      Hears now a unjudged b { b with phase := .closed failures }
  | tripped (current : a.epoch = b.epoch) : Hears now a unjudged b (b.trip now)
  | freed {since probe} (current : a.epoch = b.epoch) (halfOpen : b.phase = .halfOpen since probe)
      (handedBack : unjudged) : Hears now a unjudged b { b with phase := .halfOpen since none }

theorem releaseProbe_hears (b : Breaker) (now : Nat) (a : Admission) {unjudged : Prop}
    (handedBack : unjudged) : Hears now a unjudged b (b.releaseProbe a) := by
  simp only [releaseProbe]
  split
  case isTrue => exact .ignored
  case isFalse current =>
    have current : a.epoch = b.epoch := (not_not.mp current).symm
    split
    case h_1 since probe halfOpen => exact .freed current halfOpen handedBack
    case h_2 => exact .ignored

theorem record_hears (b : Breaker) (c : BreakerConfig) (now : Nat) (a : Admission)
    (failure : Option GatewayError) : Hears now a (Unjudged failure) b (b.record c now a failure) := by
  simp only [record]
  split
  case h_1 =>
    simp only [recordFailure]
    split
    case isTrue => exact .ignored
    case isFalse current =>
      have current : a.epoch = b.epoch := (not_not.mp current).symm
      split
      · exact .tripped current
      · split
        · exact .tripped current
        · exact .settled current
      · exact .ignored
  case h_2 => exact releaseProbe_hears b now a trivial
  case h_3 => exact releaseProbe_hears b now a trivial
  case h_4 =>
    simp only [recordSuccess]
    split
    case isTrue => exact .ignored
    case isFalse current =>
      split
      · exact .settled (not_not.mp current).symm
      · exact .ignored

/-- The hand-back of an admission of the present epoch frees the trial slot, and does nothing else. -/
theorem releaseProbe_halfOpen {b : Breaker} {a : Admission} {since : Nat} {probe : Option Nat}
    (halfOpen : b.phase = .halfOpen since probe) (current : a.epoch = b.epoch) :
    b.releaseProbe a = { b with phase := .halfOpen since none } := by
  simp only [releaseProbe, current, ne_eq, not_true_eq_false, if_false, halfOpen]

theorem record_unjudged {b : Breaker} {c : BreakerConfig} {now : Nat} {a : Admission}
    {failure : Option GatewayError} (unjudged : Unjudged failure) :
    b.record c now a failure = b.releaseProbe a := by
  unfold Unjudged at unjudged
  split at unjudged
  · rfl
  · rfl
  · exact unjudged.elim

end Breaker

structure Grant where
  admission : Admission
  since : Nat

/-- A breaker at a time, and the admissions that are neither reported nor released, by call. -/
structure Callers where
  now : Nat
  breaker : Breaker
  out : Nat → Option Grant

namespace Callers

def new (now : Nat) : Callers := ⟨now, {}, fun _ => none⟩

inductive Move where
  | wait (ms : Nat)
  | acquire (call : Nat)
  | report (call : Nat) (failure : Option GatewayError)
  | release (call : Nat)

inductive Moves (c : BreakerConfig) : Callers → Move → Callers → Prop where
  | wait {s : Callers} (ms : Nat) : Moves c s (.wait ms) { s with now := s.now + ms }
  | acquire {s : Callers} {i : Nat} (free : s.out i = none) :
      Moves c s (.acquire i)
        ⟨s.now, (s.breaker.tryAcquire c s.now).1,
          Function.update s.out i ((s.breaker.tryAcquire c s.now).2.map (⟨·, s.now⟩))⟩
  | report {s : Callers} {i : Nat} {g : Grant} (held : s.out i = some g)
      (failure : Option GatewayError) :
      Moves c s (.report i failure)
        ⟨s.now, s.breaker.record c s.now g.admission failure, Function.update s.out i none⟩
  | release {s : Callers} {i : Nat} {g : Grant} (held : s.out i = some g) :
      Moves c s (.release i)
        ⟨s.now, s.breaker.releaseProbe g.admission, Function.update s.out i none⟩

/-- Moves one after another, each of them one that `may` come where it comes. -/
inductive Runs (c : BreakerConfig) (may : Callers → Move → Prop) : Callers → Callers → Prop where
  | refl {s : Callers} : Runs c may s s
  | step {s t u : Callers} {m : Move} (run : Runs c may s t) (fits : may t m)
      (move : Moves c t m u) : Runs c may s u

def Move.HandsBack (i : Nat) : Move → Prop
  | .report j failure => j = i ∧ Breaker.Unjudged failure
  | .release j => j = i
  | _ => False

/-- How a move ends: time passes, or a call asks for admission, or one gives its admission up. -/
inductive Ends (c : BreakerConfig) (s : Callers) (m : Move) : Callers → Prop where
  | waited (ms : Nat) : Ends c s m { s with now := s.now + ms }
  | acquired {i : Nat} {b : Breaker} {answer : Option Admission}
      (acquires : s.breaker.Acquires c s.now b answer) (free : s.out i = none) :
      Ends c s m ⟨s.now, b, Function.update s.out i (answer.map (⟨·, s.now⟩))⟩
  | gaveUp {i : Nat} {g : Grant} {b : Breaker} (held : s.out i = some g)
      (hears : s.breaker.Hears s.now g.admission (m.HandsBack i) b) :
      Ends c s m ⟨s.now, b, Function.update s.out i none⟩

theorem Moves.ends {c : BreakerConfig} {s t : Callers} {m : Move} (move : Moves c s m t) :
    Ends c s m t := by
  cases move with
  | wait ms => exact .waited ms
  | acquire free => exact .acquired (s.breaker.tryAcquire_acquires c s.now) free
  | @report i g held failure =>
    have hears := s.breaker.record_hears c s.now g.admission failure
    refine .gaveUp held ?_
    simpa only [Move.HandsBack, true_and] using hears
  | release held => exact .gaveUp held (s.breaker.releaseProbe_hears s.now _ rfl)

/-- No admission is from a later time or a later epoch, and an open circuit has admitted nobody since
it opened. -/
structure Dated (s : Callers) : Prop where
  since : ∀ i g, s.out i = some g → g.since ≤ s.now
  epoch : ∀ i g, s.out i = some g → g.admission.epoch ≤ s.breaker.epoch
  opened : ∀ since, s.breaker.phase = .opened since →
    ∀ i g, s.out i = some g → g.admission.epoch < s.breaker.epoch

theorem new_dated (now : Nat) : (new now).Dated := ⟨nofun, nofun, nofun⟩

theorem Dated.acquired {c : BreakerConfig} {s : Callers} {i : Nat} {b : Breaker}
    {answer : Option Admission} (dated : s.Dated) (acquires : s.breaker.Acquires c s.now b answer) :
    Dated ⟨s.now, b, Function.update s.out i (answer.map (⟨·, s.now⟩))⟩ := by
  obtain ⟨epoch, answered⟩ := acquires.epoch
  constructor
  · intro j g held
    rcases Keyed.of_update held with ⟨_, granted⟩ | ⟨_, held⟩
    · obtain ⟨a, _, rfl⟩ := Option.map_eq_some_iff.mp granted
      exact Nat.le_refl _
    · exact dated.since j g held
  · intro j g held
    rcases Keyed.of_update held with ⟨_, granted⟩ | ⟨_, held⟩
    · obtain ⟨a, admitted, rfl⟩ := Option.map_eq_some_iff.mp granted
      exact Nat.le_of_eq ((answered a admitted).trans epoch.symm)
    · exact Nat.le_trans (dated.epoch j g held) (Nat.le_of_eq epoch.symm)
  · intro since opened j g held
    obtain ⟨rfl, rfl⟩ := acquires.refused opened
    rcases Keyed.of_update held with ⟨_, never⟩ | ⟨_, held⟩
    · cases never
    · exact dated.opened since opened j g held

theorem Dated.gaveUp {s : Callers} {i : Nat} {g : Grant} {b : Breaker} {unjudged : Prop}
    (dated : s.Dated) (hears : s.breaker.Hears s.now g.admission unjudged b) :
    Dated ⟨s.now, b, Function.update s.out i none⟩ := by
  have kept : ∀ j h, Function.update s.out i none j = some h → s.out j = some h := by
    intro j h still
    rcases Keyed.of_update still with ⟨_, never⟩ | ⟨_, still⟩
    · cases never
    · exact still
  constructor
  · intro j h still
    exact dated.since j h (kept j h still)
  · intro j h still
    have before := dated.epoch j h (kept j h still)
    cases hears with
    | tripped => exact Nat.le_succ_of_le before
    | _ => exact before
  · intro since opened j h still
    have before := dated.epoch j h (kept j h still)
    cases hears with
    | ignored => exact dated.opened since opened j h (kept j h still)
    | settled => cases opened
    | tripped => exact Nat.lt_succ_of_le before
    | freed => cases opened

theorem moves_dated {c : BreakerConfig} {s t : Callers} {m : Move} (dated : s.Dated)
    (move : Moves c s m t) : t.Dated := by
  cases move.ends with
  | waited ms =>
    refine ⟨?_, dated.epoch, dated.opened⟩
    intro i g held
    exact Nat.le_add_right_of_le (dated.since i g held)
  | acquired acquires => exact dated.acquired acquires
  | gaveUp _ hears => exact dated.gaveUp hears

end Callers

end FuturesDesk
