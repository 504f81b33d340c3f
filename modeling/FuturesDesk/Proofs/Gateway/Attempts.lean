import FuturesDesk.Gateway.Guard
import FuturesDesk.Proofs.Gateway.Discipline
import FuturesDesk.Proofs.Gateway.Idempotence

/-! The course of a retried call. Whatever the guard and the exchange behind answer, and whatever
others do to the guard in between, the call is a series of attempts, each of one of three shapes. All
attempts but the last one failed transiently, the last one only where no more were allowed, and the
call ends with what the last one came to. -/
namespace FuturesDesk.Guarded
open Program

inductive Attempt (c : ExchangeCall) where
  /-- The circuit refuses it. -/
  | refused
  /-- It is admitted and gets no token. -/
  | denied (a : Admission)
  /-- It is admitted and gets a token, and the exchange behind replies. -/
  | made (a : Admission) (reply : c.Reply)

variable {p : RetryPolicy} {c : ExchangeCall}

namespace Attempt

/-- What an attempt asks and is told, from its admission to the report of its outcome. -/
def talk : Attempt c → Talk
  | refused => [⟨.guard (.acquire c.endpoint), none⟩]
  | denied a => [⟨.guard (.acquire c.endpoint), some a⟩,
      ⟨.guard (.takeToken c.endpoint), .error (.rateLimited c.endpoint)⟩,
      ⟨.guard (.release c.endpoint a), ()⟩]
  | made a reply => [⟨.guard (.acquire c.endpoint), some a⟩,
      ⟨.guard (.takeToken c.endpoint), .ok ()⟩, ⟨.forward c, reply⟩,
      ⟨.guard (.report c.endpoint a (failure? reply)), ()⟩]

def reply : Attempt c → c.Reply
  | refused => .error (.circuitOpen c.endpoint)
  | denied _ => .error (.rateLimited c.endpoint)
  | made _ reply => reply

def Transient (x : Attempt c) : Prop := ∃ detail, x.reply = .error (.transient detail)

theorem length_forwarded_talk (x : Attempt c) : (forwarded x.talk).length ≤ 1 := by
  cases x with
  | refused => exact Nat.zero_le 1
  | denied a => exact Nat.zero_le 1
  | made a reply => exact Nat.le_refl 1

end Attempt

/-- What a series of attempts asks and is told, the first of which has a number, with a pause between
one and the next. -/
def transcript : Nat → List (Attempt c) → Attempt c → Talk
  | _, [], last => last.talk
  | number, x :: before, last =>
    x.talk ++ ⟨.guard (.pause number), ()⟩ :: transcript (number + 1) before last

/-- A whole call under a policy: the attempts that made another one necessary, and the last one. -/
structure Course (p : RetryPolicy) (c : ExchangeCall) where
  before : List (Attempt c)
  last : Attempt c
  within : before.length < p.maxAttempts
  transient : ∀ x ∈ before, x.Transient
  exhausted : last.Transient → before.length + 1 = p.maxAttempts

def Course.talk (x : Course p c) : Talk := transcript 1 x.before x.last

/-- An exchange of words that can come about. What a guard says, it says in some state, at some time;
the exchange behind may say anything. -/
def Possible : Program.Exchange Step.Reply → Prop
  | ⟨.guard s, reply⟩ =>
    ∃ (g : BucketGuard) (now bucketNow : Nat), (g.apply now bucketNow s).1 = reply
  | ⟨.forward _, _⟩ => True

variable {talk : Talk} {reply : c.Reply}

theorem possible_token {e : EndpointClass} {failure : GatewayError}
    (possible : Possible ⟨.guard (.takeToken e), .error failure⟩) : failure = .rateLimited e := by
  obtain ⟨g, now, bucketNow, answered⟩ := possible
  simp only [Guard.apply] at answered
  split at answered
  · cases answered
  · cases answered
    rfl

theorem possible_answer (q : Step) : ∃ answer, Possible ⟨q, answer⟩ := by
  cases q with
  | guard s => exact ⟨_, { settings := {}, budget := { settings := {} } }, 0, 0, rfl⟩
  | forward c => exact ⟨.error (.rejected ""), trivial⟩

theorem attempt_yields (possible : ∀ x ∈ talk, Possible x) :
    (attempt c).Yields talk reply ↔ ∃ x : Attempt c, talk = x.talk ∧ reply = x.reply := by
  constructor
  · rintro ⟨admission, _, rfl, ended⟩
    cases admission with
    | none =>
      obtain ⟨rfl, rfl⟩ := ended
      exact ⟨.refused, rfl, rfl⟩
    | some a =>
      obtain ⟨token, _, rfl, ended⟩ := ended
      cases token with
      | error failure =>
        obtain ⟨_, _, rfl, rfl, rfl⟩ := ended
        have token : Possible ⟨.guard (.takeToken c.endpoint), .error failure⟩ :=
          possible _ (List.mem_cons_of_mem _ List.mem_cons_self)
        obtain rfl := possible_token token
        exact ⟨.denied a, rfl, rfl⟩
      | ok =>
        obtain ⟨answer, _, rfl, _, _, rfl, rfl, rfl⟩ := ended
        exact ⟨.made a answer, rfl, rfl⟩
  · rintro ⟨x, rfl, rfl⟩
    cases x with
    | refused => exact ⟨_, _, rfl, rfl, rfl⟩
    | denied a => exact ⟨_, _, rfl, _, _, rfl, _, _, rfl, rfl, rfl⟩
    | made a answer => exact ⟨_, _, rfl, _, _, rfl, _, _, rfl, _, _, rfl, rfl, rfl⟩

theorem attempts_yields {number more : Nat} (possible : ∀ x ∈ talk, Possible x) :
    (attempts c number more).Yields talk reply ↔
      ∃ before last, talk = transcript number before last ∧ before.length ≤ more ∧
        (∀ x ∈ before, Attempt.Transient x) ∧ (last.Transient → before.length = more) ∧
        reply = last.reply := by
  induction more generalizing number talk with
  | zero =>
    rw [attempts, attempt_yields possible]
    constructor
    · rintro ⟨x, rfl, rfl⟩
      exact ⟨[], x, rfl, Nat.le_refl 0, by simp, fun _ => rfl, rfl⟩
    · rintro ⟨before, last, rfl, none_, _, _, rfl⟩
      obtain rfl := List.length_eq_zero_iff.mp (Nat.le_zero.mp none_)
      exact ⟨last, rfl, rfl⟩
  | succ more ih =>
    rw [attempts, yields_bind]
    constructor
    · rintro ⟨first, answer, rest, rfl, tried, later⟩
      obtain ⟨possibleFirst, possibleRest⟩ := List.forall_mem_append.mp possible
      obtain ⟨x, rfl, rfl⟩ := (attempt_yields possibleFirst).mp tried
      split at later
      case h_1 detail transient =>
        -- The attempt failed transiently: a pause, and the attempts that are left.
        obtain ⟨_, rest, rfl, later⟩ := later
        obtain ⟨before, last, rfl, fewer, all, exhausted, rfl⟩ :=
          (ih fun x member => possibleRest x (List.mem_cons_of_mem _ member)).mp later
        refine ⟨x :: before, last, rfl, Nat.succ_le_succ fewer, ?_, ?_, rfl⟩
        · exact List.forall_mem_cons.mpr ⟨⟨detail, transient⟩, all⟩
        · exact fun failed => congrArg (· + 1) (exhausted failed)
      case h_2 settled =>
        obtain ⟨rfl, rfl⟩ := later
        refine ⟨[], x, List.append_nil _, Nat.zero_le _, by simp, ?_, rfl⟩
        rintro ⟨detail, transient⟩
        exact (settled detail transient).elim
    · rintro ⟨before, last, rfl, fewer, all, exhausted, rfl⟩
      cases before with
      | nil =>
        refine ⟨last.talk, last.reply, [], (List.append_nil _).symm, ?_, ?_⟩
        · exact (attempt_yields possible).mpr ⟨last, rfl, rfl⟩
        · split
          case h_1 detail transient => cases exhausted ⟨detail, transient⟩
          case h_2 => exact ⟨rfl, rfl⟩
      | cons x before =>
        obtain ⟨⟨detail, transient⟩, all⟩ := List.forall_mem_cons.mp all
        obtain ⟨possibleFirst, possibleRest⟩ := List.forall_mem_append.mp possible
        refine ⟨x.talk, x.reply, _, rfl, (attempt_yields possibleFirst).mpr ⟨x, rfl, rfl⟩, ?_⟩
        rw [transient]
        refine ⟨(), _, rfl, ?_⟩
        refine (ih fun x member => possibleRest x (List.mem_cons_of_mem _ member)).mpr ?_
        exact ⟨before, last, rfl, Nat.le_of_succ_le_succ fewer, all,
          fun failed => Nat.succ.inj (exhausted failed), rfl⟩

/-- What keeps the order of steps has no place to fault. -/
theorem Disciplined.not_faults {α : Type} {e : EndpointClass} {stage : Stage} {t : Task α}
    (disciplined : Disciplined e stage t) {cause : Decimal.Fault} : ¬ t.Faults talk cause := by
  induction disciplined generalizing talk with
  | «over» => exact faults_done
  | acquire _ _ refused admitted =>
    rintro ⟨admission, _, rfl, faulted⟩
    cases admission with
    | none => exact refused faulted
    | some a => exact admitted a faulted
  | pause _ ih =>
    rintro ⟨_, _, rfl, faulted⟩
    exact ih faulted
  | freshId _ ih =>
    rintro ⟨id, _, rfl, faulted⟩
    exact ih id faulted
  | takeToken _ _ granted denied =>
    rintro ⟨token, _, rfl, faulted⟩
    cases token with
    | ok => exact granted faulted
    | error failure => exact denied failure faulted
  | release _ ih =>
    rintro ⟨_, _, rfl, faulted⟩
    exact ih faulted
  | forward _ _ ih =>
    rintro ⟨answer, _, rfl, faulted⟩
    exact ih answer faulted
  | report _ ih =>
    rintro ⟨_, _, rfl, faulted⟩
    exact ih faulted

theorem length_forwarded_transcript (number : Nat) (before : List (Attempt c)) (last : Attempt c) :
    (forwarded (transcript number before last)).length ≤ before.length + 1 := by
  induction before generalizing number with
  | nil => exact last.length_forwarded_talk
  | cons x before ih =>
    have here := x.length_forwarded_talk
    have later := ih (number + 1)
    simp only [forwarded, transcript, List.filterMap_append, List.filterMap_cons,
      List.length_append, List.length_cons] at here later ⊢
    omega

/-- A retried call takes a course, whatever it is told. Up to any point in between, what it asked and
was told is the beginning of one, so that at most as many calls reach the exchange as there may be
attempts; and it ends with a reply exactly when a course is over, and with what its last attempt came
to. -/
theorem retried_takes_course (allowed : 1 ≤ p.maxAttempts) (possible : ∀ x ∈ talk, Possible x) :
    ((retried p c).Holds talk →
      (∃ course : Course p c, talk <+: course.talk) ∧ (forwarded talk).length ≤ p.maxAttempts) ∧
    ∀ reply, (retried p c).Yields talk reply ↔
      ∃ course : Course p c, talk = course.talk ∧ reply = course.last.reply := by
  have ends : ∀ {talk reply}, (∀ x ∈ talk, Possible x) → ((retried p c).Yields talk reply ↔
      ∃ course : Course p c, talk = course.talk ∧ reply = course.last.reply) := by
    intro talk reply possible
    rw [retried, attempts_yields possible]
    constructor
    · rintro ⟨before, last, rfl, fewer, transient, exhausted, rfl⟩
      refine ⟨⟨before, last, by omega, transient, ?_⟩, rfl, rfl⟩
      intro failed
      have all := exhausted failed
      omega
    · rintro ⟨⟨before, last, within, transient, exhausted⟩, rfl, rfl⟩
      refine ⟨before, last, rfl, by omega, transient, ?_, rfl⟩
      intro failed
      have all := exhausted failed
      omega
  refine ⟨?_, fun reply => ends possible⟩
  intro held
  have faultless : ∀ talk cause, ¬ (retried p c).Faults talk cause :=
    fun _ _ => (attempts_disciplined c 1 _).not_faults
  obtain ⟨rest, reply, possibleRest, ended⟩ := held.completes possible_answer faultless
  obtain ⟨course, same, _⟩ := (ends (List.forall_mem_append.mpr ⟨possible, possibleRest⟩)).mp ended
  have begun : talk <+: course.talk := ⟨rest, same⟩
  refine ⟨⟨course, begun⟩, ?_⟩
  calc (forwarded talk).length
      ≤ (forwarded course.talk).length := (begun.filterMap _).length_le
    _ ≤ course.before.length + 1 := length_forwarded_transcript 1 _ _
    _ ≤ p.maxAttempts := course.within

/-- Two attempts fail transiently, which trips the circuit, and the third one is refused. -/
theorem tripping_call_takes_course :
    ∃ talk : Talk, (∀ x ∈ talk, Possible x) ∧
      (retried {} (.price "BTCUSDT")).Yields talk (.error (.circuitOpen .marketData)) ∧
      talk.length = 11 ∧ (forwarded talk).length = 2 := by
  let failed : Attempt (.price "BTCUSDT") := .made ⟨0⟩ (.error (.transient "503"))
  let course : Course {} (.price "BTCUSDT") := {
    before := [failed, failed]
    last := .refused
    within := by decide
    transient := by
      intro x member
      obtain rfl : x = failed := by simpa using member
      exact ⟨"503", rfl⟩
    exhausted := by
      rintro ⟨detail, never⟩
      cases never }
  have granted : Possible ⟨.guard (.takeToken .marketData), .ok ()⟩ :=
    ⟨{ settings := {}, budget := { settings := {} } }, 0, 0, by rfl⟩
  let fresh : BucketGuard := { settings := {}, budget := { settings := {} } }
  let tripped : BucketGuard := { fresh with breakers := { marketData := ⟨.opened 0, 1, 1⟩ } }
  have tried : ∀ x ∈ failed.talk, Possible x := by
    simp only [failed, Attempt.talk, List.forall_mem_cons]
    exact ⟨⟨fresh, 0, 0, rfl⟩, granted, trivial, ⟨fresh, 0, 0, rfl⟩, by simp⟩
  have possible : ∀ x ∈ course.talk, Possible x := by
    simp only [course, Course.talk, transcript, Attempt.talk, List.forall_mem_append,
      List.forall_mem_cons]
    exact ⟨tried, ⟨fresh, 0, 0, rfl⟩, tried, ⟨fresh, 0, 0, rfl⟩, ⟨tripped, 0, 0, rfl⟩, by simp⟩
  exact ⟨course.talk, possible,
    ((retried_takes_course (by decide) possible).2 _).mpr ⟨course, rfl, rfl⟩, rfl, rfl⟩

end FuturesDesk.Guarded
