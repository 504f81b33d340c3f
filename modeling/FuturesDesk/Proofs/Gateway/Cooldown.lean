import FuturesDesk.Proofs.Gateway.Traffic

/-! What reaches the exchange during the cooldown after a trip. A circuit that is open refuses every
call and takes no notice of reports, so that no call is admitted before the cooldown has passed. A
call that was admitted before the trip and still waits for its token is not asked again. -/
namespace FuturesDesk

namespace Breaker

theorem tryAcquire_opened {b : Breaker} {c : BreakerConfig} {since now : Nat}
    (opened : b.phase = .opened since) (after : since ≤ now) (before : now < since + c.cooldown) :
    b.tryAcquire c now = (b, none) := by
  have cooling : cooledDown c now since = false := by
    simp only [cooledDown, decide_eq_false_iff_not]
    omega
  simp only [tryAcquire, opened, cooling, Bool.false_eq_true, if_false]

theorem releaseProbe_opened {b : Breaker} {since : Nat} (opened : b.phase = .opened since)
    (a : Admission) : b.releaseProbe a = b := by
  simp only [releaseProbe, opened, ite_self]

theorem recordSuccess_opened {b : Breaker} {since : Nat} (opened : b.phase = .opened since)
    (a : Admission) : b.recordSuccess a = b := by
  simp only [recordSuccess, opened, ite_self]

theorem recordFailure_opened {b : Breaker} {since : Nat} (opened : b.phase = .opened since)
    (c : BreakerConfig) (now : Nat) (a : Admission) : b.recordFailure c now a = b := by
  simp only [recordFailure, opened, ite_self]

/-- An open circuit takes no notice of how calls end. -/
theorem record_opened {b : Breaker} {since : Nat} (opened : b.phase = .opened since)
    (c : BreakerConfig) (now : Nat) (a : Admission) (failure : Option GatewayError) :
    b.record c now a failure = b := by
  simp only [record]
  split
  · exact recordFailure_opened opened c now a
  · exact releaseProbe_opened opened a
  · exact releaseProbe_opened opened a
  · exact recordSuccess_opened opened a

theorem tryAcquire_epoch (b : Breaker) (c : BreakerConfig) (now : Nat) :
    (b.tryAcquire c now).1.epoch = b.epoch := by
  simp only [tryAcquire]
  repeat' split
  all_goals rfl

theorem releaseProbe_epoch (b : Breaker) (a : Admission) : (b.releaseProbe a).epoch = b.epoch := by
  simp only [releaseProbe]
  repeat' split
  all_goals rfl

/-- A report trips the breaker or leaves its epoch. -/
theorem record_trips (b : Breaker) (c : BreakerConfig) (now : Nat) (a : Admission)
    (failure : Option GatewayError) :
    b.record c now a failure = b.trip now ∨ (b.record c now a failure).epoch = b.epoch := by
  simp only [record]
  split
  · simp only [recordFailure]
    repeat' split
    all_goals first | exact .inl rfl | exact .inr rfl
  · exact .inr (releaseProbe_epoch b a)
  · exact .inr (releaseProbe_epoch b a)
  · simp only [recordSuccess]
    repeat' split
    all_goals exact .inr rfl

end Breaker

namespace Guard
variable {L : Limiter} {I : IdSource}

theorem apply_settings (g : Guard L I) (now bucketNow : Nat) (q : Guarded.GuardStep) :
    (g.apply now bucketNow q).2.settings = g.settings := by
  cases q with
  | takeToken c =>
    simp only [apply]
    split <;> rfl
  | _ => rfl

/-- A step for another class, or for none, leaves a circuit alone. -/
theorem apply_acquire_breaker (g : Guard L I) (now bucketNow : Nat) (c e : EndpointClass) :
    (g.apply now bucketNow (.acquire c)).2.breakers.get e =
      if c = e then ((g.breakers.get c).tryAcquire g.settings.breaker now).1
      else g.breakers.get e :=
  Breakers.get_set _ _ _ _

theorem apply_report_breaker (g : Guard L I) (now bucketNow : Nat) (c e : EndpointClass)
    (a : Admission) (failure : Option GatewayError) :
    (g.apply now bucketNow (.report c a failure)).2.breakers.get e =
      if c = e then (g.breakers.get c).record g.settings.breaker now a failure
      else g.breakers.get e :=
  Breakers.get_set _ _ _ _

theorem apply_release_breaker (g : Guard L I) (now bucketNow : Nat) (c e : EndpointClass)
    (a : Admission) :
    (g.apply now bucketNow (.release c a)).2.breakers.get e =
      if c = e then (g.breakers.get c).releaseProbe a else g.breakers.get e :=
  Breakers.get_set _ _ _ _

/-- While a circuit cools down, no step changes it. -/
theorem apply_opened {g : Guard L I} {e : EndpointClass} {since now : Nat}
    (opened : (g.breakers.get e).phase = .opened since) (after : since ≤ now)
    (before : now < since + g.settings.breaker.cooldown) (bucketNow : Nat)
    (q : Guarded.GuardStep) :
    (g.apply now bucketNow q).2.breakers.get e = g.breakers.get e := by
  cases q with
  | acquire c =>
    rw [apply_acquire_breaker]
    split
    case isTrue same => rw [same, Breaker.tryAcquire_opened opened after before]
    case isFalse => rfl
  | takeToken c =>
    simp only [apply]
    split <;> rfl
  | report c a failure =>
    rw [apply_report_breaker]
    split
    case isTrue same => rw [same, Breaker.record_opened opened]
    case isFalse => rfl
  | release c a =>
    rw [apply_release_breaker]
    split
    case isTrue same => rw [same, Breaker.releaseProbe_opened opened]
    case isFalse => rfl
  | pause n => rfl
  | freshId => rfl

/-- A step that starts an epoch opens the circuit. -/
theorem apply_trips {g : Guard L I} {now bucketNow : Nat} {q : Guarded.GuardStep} {e : EndpointClass}
    (trips : ((g.apply now bucketNow q).2.breakers.get e).epoch ≠ (g.breakers.get e).epoch) :
    ((g.apply now bucketNow q).2.breakers.get e).phase = .opened now := by
  cases q with
  | acquire c =>
    rw [apply_acquire_breaker] at trips
    split at trips
    case isTrue same => exact absurd (same ▸ Breaker.tryAcquire_epoch _ _ _) trips
    case isFalse => exact absurd rfl trips
  | takeToken c =>
    refine absurd ?_ trips
    simp only [apply]
    split <;> rfl
  | report c a failure =>
    rw [apply_report_breaker] at trips ⊢
    split at trips
    case isTrue same =>
      obtain rfl := same
      rw [if_pos rfl]
      rcases Breaker.record_trips (g.breakers.get c) g.settings.breaker now a failure with
        tripped | kept
      · rw [tripped]
        rfl
      · exact absurd kept trips
    case isFalse => exact absurd rfl trips
  | release c a =>
    rw [apply_release_breaker] at trips
    split at trips
    case isTrue same => exact absurd (same ▸ Breaker.releaseProbe_epoch _ _) trips
    case isFalse => exact absurd rfl trips
  | pause n => exact absurd rfl trips
  | freshId => exact absurd rfl trips

end Guard

namespace Guarded

/-- The call is admitted to endpoints of a class and has yet to reach the exchange behind. -/
def Flight.Waits (f : Flight) (e : EndpointClass) : Prop :=
  f.inside = false ∧
    match f.task with
    | .ask (.guard (.takeToken c)) _ => c = e
    | .ask (.forward r) _ => r.endpoint = e
    | _ => False

/-- A call waits only between its admission and the call behind. -/
theorem Disciplined.not_waits {c : ExchangeCall} {e : EndpointClass} {stage : Stage}
    {task : Task c.Reply} {inside : Bool} (fits : Disciplined c.endpoint stage task)
    (other : c.endpoint = e → ∀ a, stage ≠ .admitted a ∧ (stage ≠ .cleared a ∨ inside = true)) :
    ¬ Flight.Waits ⟨c, task, inside⟩ e := by
  rintro ⟨outside, next⟩
  cases fits with
  | @takeToken a => exact (other next a).1 rfl
  | @forward a _ _ same =>
    rcases (other (same.symm.trans next) a).2 with never | never
    · exact never rfl
    · exact absurd (outside.symm.trans never) Bool.false_ne_true
  | _ => exact next

namespace Traffic
variable {p : RetryPolicy} {knowsIds : Bool} {s t : Traffic} {m : Move} {ms : List Move}
  {e : EndpointClass} {since : Nat}

/-- A call comes to wait by its admission only. -/
theorem moves_waits {i : Nat} {f : Flight} (orderly : s.Orderly) (move : Moves p knowsIds s m t)
    (found : t.flights i = some f) (waiting : f.Waits e) :
    (∃ g, s.flights i = some g ∧ g.Waits e) ∨
      m = .guard i (.acquire e) ∧ (s.guard.apply s.now 0 (.acquire e)).1 ≠ none := by
  have stays : ∀ j g, s.flights j = some g → g.Waits e → (∃ g, s.flights j = some g ∧ g.Waits e) ∨
      m = .guard j (.acquire e) ∧ (s.guard.apply s.now 0 (.acquire e)).1 ≠ none :=
    fun _ g found waiting => .inl ⟨g, found, waiting⟩
  have rests : ∀ {c : ExchangeCall} {task : Task c.Reply},
      Disciplined c.endpoint .resting task → ¬ Flight.Waits ⟨c, task, false⟩ e :=
    fun fits => fits.not_waits fun _ _ => ⟨nofun, .inl nofun⟩
  cases move with
  | wait ms => exact stays i f found waiting
  | begin free c =>
    refine forall_put stays ?_ i f found waiting
    rintro _ ⟨⟩ waiting
    exact absurd waiting (rests (call_disciplined p knowsIds c))
  | @guard j c q next here atOnce =>
    refine forall_put stays ?_ i f found waiting
    rintro _ ⟨⟩ waiting
    obtain ⟨stage, fits⟩ : ∃ stage, Disciplined c.endpoint stage (.ask (.guard q) next) :=
      orderly _ _ here
    cases fits with
    | acquire refused admitted =>
      cases reply : (s.guard.apply s.now 0 (.acquire c.endpoint)).1 with
      | none =>
        rw [reply] at waiting
        exact absurd waiting (rests refused)
      | some a =>
        rw [reply] at waiting
        by_cases same : c.endpoint = e
        · rw [← same, reply]
          exact .inr ⟨rfl, nofun⟩
        · exact absurd waiting ((admitted a).not_waits fun never => absurd never same)
    | pause rest => exact absurd waiting (rests rest)
    | freshId rest => exact absurd waiting (rests (rest _))
    | takeToken => exact absurd rfl (atOnce _)
    | release rest => exact absurd waiting (rests rest)
    | report rest => exact absurd waiting (rests rest)
  | @token j c endpoint next here reply =>
    refine forall_put stays ?_ i f found waiting
    rintro _ ⟨⟩ waiting
    obtain ⟨stage, fits⟩ :
        ∃ stage, Disciplined c.endpoint stage (.ask (.guard (.takeToken endpoint)) next) :=
      orderly _ _ here
    by_cases same : endpoint = e
    · exact .inl ⟨_, here, rfl, same⟩
    · refine absurd waiting ?_
      cases fits with
      | takeToken granted denied =>
        cases reply with
        | ok => exact granted.not_waits fun never => absurd never same
        | error failure => exact (denied failure).not_waits fun never => absurd never same
  | start here =>
    refine forall_put stays ?_ i f found waiting
    rintro _ ⟨⟩ ⟨outside, _⟩
    cases outside
  | @finish j c r next here reply =>
    refine forall_put stays ?_ i f found waiting
    rintro _ ⟨⟩ waiting
    refine absurd waiting ?_
    obtain ⟨stage, fits⟩ : ∃ stage, Disciplined c.endpoint stage (.ask (.forward r) next) :=
      orderly _ _ here
    cases fits with
    | forward _ rest => exact (rest reply).not_waits fun _ _ => ⟨nofun, .inl nofun⟩
  | abandon j =>
    refine forall_put stays ?_ i f found waiting
    nofun

theorem moves_settings (move : Moves p knowsIds s m t) : t.guard.settings = s.guard.settings := by
  cases move with
  | guard => exact Guard.apply_settings _ _ _ _
  | _ => rfl

/-- While a circuit cools down, no move changes it. -/
theorem moves_opened (opened : (s.guard.breakers.get e).phase = .opened since)
    (after : since ≤ s.now) (before : s.now < since + s.guard.settings.breaker.cooldown)
    (move : Moves p knowsIds s m t) : t.guard.breakers.get e = s.guard.breakers.get e := by
  cases move with
  | guard => exact Guard.apply_opened opened after before _ _
  | _ => rfl

structure Cools (e : EndpointClass) (since cooldown : Nat) (late : Nat → Prop) (s : Traffic) :
    Prop where
  opened : (s.guard.breakers.get e).phase = .opened since
  after : since ≤ s.now
  cooldown : s.guard.settings.breaker.cooldown = cooldown
  orderly : s.Orderly
  waits : ∀ i f, s.flights i = some f → f.Waits e → late i

/-- While the circuit cools down, no further call comes to wait. -/
theorem Cools.step {cooldown : Nat} {late : Nat → Prop} (cools : s.Cools e since cooldown late)
    (before : s.now < since + cooldown) (move : Moves p knowsIds s m t) :
    t.Cools e since cooldown late := by
  obtain ⟨opened, after, rfl, orderly, waits⟩ := cools
  refine ⟨?opened, Nat.le_trans after (moves_now move), ?settings, moves_orderly orderly move, ?_⟩
  case opened => rw [moves_opened opened after before move, opened]
  case settings => rw [moves_settings move]
  intro i f found waiting
  rcases moves_waits orderly move found waiting with ⟨g, earlier, waited⟩ | ⟨_, admitted⟩
  · exact waits i g earlier waited
  · exact absurd (congrArg Prod.snd (Breaker.tryAcquire_opened opened after before)) admitted

/-- Only a call that waited starts. -/
theorem Cools.start {cooldown i : Nat} {late : Nat → Prop} {r : ExchangeCall}
    (cools : s.Cools e since cooldown late) (move : Moves p knowsIds s (.start i r) t)
    (same : r.endpoint = e) : late i := by
  cases move with
  | start found => exact cools.waits i _ found ⟨rfl, same⟩

theorem Cools.run {cooldown : Nat} {late : Nat → Prop} (cools : s.Cools e since cooldown late)
    (run : Runs p knowsIds s ms t) (before : t.now < since + cooldown) :
    t.Cools e since cooldown late := by
  induction run with
  | refl => exact cools
  | step _ move ih =>
    have earlier := Nat.lt_of_le_of_lt (moves_now move) before
    exact (ih earlier).step earlier move

/-- The move starts an epoch of a circuit. -/
def Trips (s t : Traffic) (e : EndpointClass) : Prop :=
  (t.guard.breakers.get e).epoch ≠ (s.guard.breakers.get e).epoch

theorem opened_of_trips (move : Moves p knowsIds s m t) (trips : s.Trips t e) :
    (t.guard.breakers.get e).phase = .opened t.now := by
  cases move with
  | guard => exact Guard.apply_trips trips
  | _ => exact absurd rfl trips

theorem empty_orderly (now : Nat) (g : BucketGuard) : (empty now g).Orderly := nofun

/-- A call that waits may start at once: its token comes, if it has none yet. -/
theorem starts_of_waits {i : Nat} {f : Flight} (orderly : s.Orderly) (found : s.flights i = some f)
    (waiting : f.Waits e) :
    ∃ ms t r u, Runs p knowsIds s ms t ∧ Moves p knowsIds t (.start i r) u ∧ r.endpoint = e ∧
      t.now = s.now := by
  obtain ⟨c, task, inside⟩ := f
  obtain ⟨rfl, next⟩ : inside = false ∧ _ := waiting
  obtain ⟨stage, fits⟩ : ∃ stage, Disciplined c.endpoint stage task := orderly i _ found
  cases fits with
  | @takeToken a more granted denied =>
    have taken : Moves p knowsIds s _ _ := .token found (.ok ())
    have reached : (s.put i (some ⟨c, more (.ok ()), false⟩)).flights i =
        some ⟨c, more (.ok ()), false⟩ := by
      rw [put_flights, if_pos rfl]
    generalize more (.ok ()) = rest at granted taken reached
    cases granted with
    | @forward _ r _ same _ =>
      exact ⟨_, _, r, _, .step .refl taken, .start reached, same.trans next, rfl⟩
  | @forward _ r _ same _ => exact ⟨[], s, r, _, .refl, .start found, next, rfl⟩
  | _ => exact next.elim

/-- From a trip until the cooldown has passed, just the calls can start on the exchange behind that
were admitted before the trip and waited then. -/
theorem starts_in_cooldown_iff {g : BucketGuard} {now : Nat} {s₀ : Traffic}
    (run : Runs p knowsIds (empty now g) ms s₀) (move : Moves p knowsIds s₀ m s)
    (trips : s₀.Trips s e) (i : Nat) :
    (∃ ms t r u, Runs p knowsIds s ms t ∧ Moves p knowsIds t (.start i r) u ∧ r.endpoint = e ∧
        t.now < s.now + s.guard.settings.breaker.cooldown) ↔
      0 < s.guard.settings.breaker.cooldown ∧ ∃ f, s.flights i = some f ∧ f.Waits e := by
  have orderly : s.Orderly := moves_orderly (runs_orderly (empty_orderly now g) run) move
  constructor
  · rintro ⟨ms, t, r, u, later, start, same, before⟩
    have passed := runs_now later
    refine ⟨by omega, ?_⟩
    have cools : s.Cools e s.now s.guard.settings.breaker.cooldown
        fun j => ∃ f, s.flights j = some f ∧ f.Waits e :=
      ⟨opened_of_trips move trips, Nat.le_refl _, rfl, orderly,
        fun j f found waiting => ⟨f, found, waiting⟩⟩
    exact (cools.run later before).start start same
  · rintro ⟨positive, f, found, waiting⟩
    obtain ⟨ms, t, r, u, later, start, same, still⟩ := starts_of_waits orderly found waiting
    exact ⟨ms, t, r, u, later, start, same, by omega⟩

/-- Two price calls pass the breaker. The first fails and trips it; the second gets its token five
milliseconds later and starts. -/
theorem start_after_trip :
    ∃ (g : BucketGuard) (before after : List Move) (m : Move) (s₀ s t u : Traffic) (r : ExchangeCall),
      Runs {} false (empty 0 g) before s₀ ∧ Moves {} false s₀ m s ∧ s₀.Trips s .marketData ∧
        Runs {} false s after t ∧ Moves {} false t (.start 1 r) u ∧ r.endpoint = .marketData ∧
        s.now < t.now ∧ t.now < s.now + s.guard.settings.breaker.cooldown := by
  let g : BucketGuard :=
    { settings := { breaker := { failureThreshold := 1 } }, budget := { settings := {} } }
  let c : ExchangeCall := .price "BTCUSDT"
  have begun : Runs {} false (empty 0 g) _ _ :=
    (Runs.refl.step (.begin (i := 0) rfl c)).step (.begin (i := 1) rfl c)
  have admitted := (begun.step (.guard (i := 0) rfl nofun)).step (.guard (i := 1) rfl nofun)
  have failed := ((admitted.step (.token (i := 0) rfl (.ok ()))).step (.start (i := 0) rfl)).step
    (.finish (i := 0) rfl (.error (.transient "")))
  refine ⟨g, _, _, _, _, _, _, _, _, failed, .guard (i := 0) rfl nofun, ?_,
    (Runs.refl.step (.wait 5)).step (.token (i := 1) rfl (.ok ())), .start (i := 1) rfl, rfl, ?_, ?_⟩
  · exact nofun
  · decide
  · decide

/-- A call that nobody began before the trip does not start during the cooldown. -/
theorem new_call_waits_out :
    ∃ (g : BucketGuard) (before : List Move) (m : Move) (s₀ s : Traffic),
      Runs {} false (empty 0 g) before s₀ ∧ Moves {} false s₀ m s ∧ s₀.Trips s .marketData ∧
        ¬ ∃ ms t r u, Runs {} false s ms t ∧ Moves {} false t (.start 2 r) u ∧
          r.endpoint = .marketData ∧ t.now < s.now + s.guard.settings.breaker.cooldown := by
  let g : BucketGuard :=
    { settings := { breaker := { failureThreshold := 1 } }, budget := { settings := {} } }
  have admitted : Runs {} false (empty 0 g) _ _ :=
    (Runs.refl.step (.begin (i := 0) rfl (.price "BTCUSDT"))).step (.guard (i := 0) rfl nofun)
  have failed := ((admitted.step (.token (i := 0) rfl (.ok ()))).step (.start (i := 0) rfl)).step
    (.finish (i := 0) rfl (.error (.transient "")))
  refine ⟨g, _, _, _, _, failed, .guard (i := 0) rfl nofun, ?trips, ?_⟩
  case trips => exact nofun
  intro starts
  obtain ⟨_, f, found, _⟩ :=
    (starts_in_cooldown_iff failed (.guard (i := 0) rfl nofun) (by exact nofun) 2).mp starts
  cases found

end Traffic

end Guarded

end FuturesDesk
