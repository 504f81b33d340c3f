import FuturesDesk.Proofs.Gateway.Callers

/-! The trial call of a half-open circuit. A trial that reports nothing for a cooldown loses its slot
to the next one. It may still hand the slot back later, and then hands back what is no longer its own.
Up to such a move there is one young trial at most; after it the next admission is a second one. -/
namespace FuturesDesk.Callers

variable {c : BreakerConfig} {s t : Callers} {m : Move} {i : Nat}

/-- The circuit is half-open, and the call holds an admission of the present epoch that is younger
than the cooldown. -/
structure Trial (c : BreakerConfig) (s : Callers) (i : Nat) : Prop where
  halfOpen : ∃ since probe, s.breaker.phase = .halfOpen since probe
  young : ∃ g, s.out i = some g ∧ g.admission.epoch = s.breaker.epoch ∧ s.now < g.since + c.cooldown

def Lone (c : BreakerConfig) (s : Callers) : Prop := ∀ i j, s.Trial c i → s.Trial c j → i = j

/-- The move hands back an admission of the present epoch while another call is on trial. -/
def Intrudes (c : BreakerConfig) (s : Callers) (m : Move) : Prop :=
  ∃ i k g, m.HandsBack k ∧ s.out k = some g ∧ g.admission.epoch = s.breaker.epoch ∧
    s.Trial c i ∧ i ≠ k

/-- The one call on trial, if there is one, took the slot last. -/
structure Single (c : BreakerConfig) (s : Callers) : Prop where
  dated : s.Dated
  lone : s.Lone c
  slot : ∀ i g since probe, s.Trial c i → s.out i = some g →
    s.breaker.phase = .halfOpen since probe → probe = some g.since

theorem Trial.earlier (trial : t.Trial c i)
    (halfOpen : ∃ since probe, s.breaker.phase = .halfOpen since probe)
    (epoch : t.breaker.epoch = s.breaker.epoch) (now : s.now ≤ t.now)
    (kept : ∀ g, t.out i = some g → s.out i = some g) : s.Trial c i := by
  obtain ⟨_, g, held, current, young⟩ := trial
  exact ⟨halfOpen, g, kept g held, current.trans epoch, Nat.lt_of_le_of_lt now young⟩

theorem not_trial (settled : ∀ since probe, s.breaker.phase ≠ .halfOpen since probe) :
    ¬ s.Trial c i := by
  rintro ⟨⟨since, probe, halfOpen⟩, _⟩
  exact settled since probe halfOpen

theorem Single.of_none (dated : s.Dated) (never : ∀ i, ¬ s.Trial c i) : s.Single c where
  dated := dated
  lone := fun i _ trial _ => absurd trial (never i)
  slot := fun i _ _ _ trial _ _ => absurd trial (never i)

theorem new_single (now : Nat) : (new now).Single c :=
  .of_none (new_dated now) fun _ => not_trial nofun

theorem Single.kept (single : s.Single c) (dated : t.Dated)
    (phase : t.breaker.phase = s.breaker.phase)
    (earlier : ∀ i g, t.Trial c i → t.out i = some g → s.Trial c i ∧ s.out i = some g) :
    t.Single c := by
  constructor
  · exact dated
  · intro i j left right
    obtain ⟨g, heldLeft, _⟩ := left.young
    obtain ⟨h, heldRight, _⟩ := right.young
    exact single.lone i j (earlier i g left heldLeft).1 (earlier j h right heldRight).1
  · intro i g since probe trial held halfOpen
    obtain ⟨before, heldBefore⟩ := earlier i g trial held
    exact single.slot i g since probe before heldBefore (phase.symm.trans halfOpen)

/-- A call that takes the slot while no other one is on trial is the only one. -/
theorem Single.taken {since : Nat}
    (dated : Dated ⟨s.now, { s.breaker with phase := .halfOpen since (some s.now) },
      Function.update s.out i (some ⟨⟨s.breaker.epoch⟩, s.now⟩)⟩)
    (others : ∀ j g, s.out j = some g → g.admission.epoch = s.breaker.epoch →
      ¬ s.now < g.since + c.cooldown) :
    Single c ⟨s.now, { s.breaker with phase := .halfOpen since (some s.now) },
      Function.update s.out i (some ⟨⟨s.breaker.epoch⟩, s.now⟩)⟩ := by
  have only : ∀ j, Trial c ⟨s.now, { s.breaker with phase := .halfOpen since (some s.now) },
      Function.update s.out i (some ⟨⟨s.breaker.epoch⟩, s.now⟩)⟩ j → j = i := by
    intro j trial
    obtain ⟨g, held, current, young⟩ := trial.young
    rcases Keyed.of_update held with ⟨same, _⟩ | ⟨_, held⟩
    · exact same
    · exact absurd young (others j g held current)
  constructor
  · exact dated
  · intro j k left right
    exact (only j left).trans (only k right).symm
  · intro j g _ _ trial held halfOpen
    rcases Keyed.of_update held with ⟨_, granted⟩ | ⟨other, _⟩
    · cases granted
      cases halfOpen
      rfl
    · exact absurd (only j trial) other

/-- An admission is granted only where no call is on trial. -/
theorem Single.acquired (single : s.Single c) {b : Breaker} {answer : Option Admission}
    (acquires : s.breaker.Acquires c s.now b answer) (free : s.out i = none) :
    Single c ⟨s.now, b, Function.update s.out i (answer.map (⟨·, s.now⟩))⟩ := by
  have dated := single.dated.acquired (i := i) acquires
  have unchanged : Function.update s.out i none = s.out := by rw [← free, Function.update_eq_self]
  cases acquires with
  | passes closed =>
    refine .of_none dated fun _ => not_trial ?_
    intro since probe halfOpen
    rw [closed] at halfOpen
    cases halfOpen
  | tries opened _ =>
    refine .taken dated ?_
    intro j g held current
    have earlier := single.dated.opened _ opened j g held
    omega
  | @triesAgain since probe halfOpen slotFree =>
    refine .taken dated ?_
    intro j g held current young
    have trial : s.Trial c j := ⟨⟨since, probe, halfOpen⟩, g, held, current, young⟩
    have cooled := slotFree g.since (single.slot j g since probe trial held halfOpen)
    have before := single.dated.since j g held
    omega
  | cools =>
    rw [Option.map_none, unchanged]
    exact single
  | waits =>
    rw [Option.map_none, unchanged]
    exact single

/-- A call that gives its admission up frees the slot only if it is its own. -/
theorem Single.gaveUp (single : s.Single c) {g : Grant} {b : Breaker}
    (keeps : ¬ s.Intrudes c m) (held : s.out i = some g)
    (hears : s.breaker.Hears s.now g.admission (m.HandsBack i) b) :
    Single c ⟨s.now, b, Function.update s.out i none⟩ := by
  have dated := single.dated.gaveUp (i := i) hears
  have kept : ∀ j h, Function.update s.out i none j = some h → j ≠ i ∧ s.out j = some h := by
    intro j h still
    rcases Keyed.of_update still with ⟨_, never⟩ | stays
    · cases never
    · exact stays
  cases hears with
  | ignored =>
    refine single.kept dated rfl ?_
    intro j h trial still
    have stays := (kept j h still).2
    exact ⟨trial.earlier trial.halfOpen rfl (Nat.le_refl _) fun g' held' => (kept j g' held').2, stays⟩
  | settled => exact .of_none dated fun _ => not_trial nofun
  | tripped => exact .of_none dated fun _ => not_trial nofun
  | freed current halfOpen handedBack =>
    refine .of_none dated ?_
    intro j trial
    obtain ⟨h, still, _⟩ := trial.young
    have before : s.Trial c j :=
      trial.earlier ⟨_, _, halfOpen⟩ rfl (Nat.le_refl _) fun g' held' => (kept j g' held').2
    exact keeps ⟨j, i, g, handedBack, held, current, before, (kept j h still).1⟩

theorem moves_single (single : s.Single c) (keeps : ¬ s.Intrudes c m) (move : Moves c s m t) :
    t.Single c := by
  have dated := moves_dated single.dated move
  cases move.ends with
  | waited ms =>
    refine single.kept dated rfl ?_
    intro i g trial held
    exact ⟨trial.earlier trial.halfOpen rfl (Nat.le_add_right _ _) fun _ held => held, held⟩
  | acquired acquires free => exact single.acquired acquires free
  | gaveUp held hears => exact single.gaveUp keeps held hears

theorem runs_single (single : s.Single c) (run : Runs c (fun s m => ¬ s.Intrudes c m) s t) :
    t.Single c := by
  induction run with
  | refl => exact single
  | step _ keeps move ih => exact moves_single ih keeps move

/-- Once a call hands back a slot that another one has taken, the next admission is a second
trial. -/
theorem second_of_intrudes (dated : s.Dated) (intrudes : s.Intrudes c m) (move : Moves c s m t) :
    ∃ i u, Moves c t (.acquire i) u ∧ ¬ u.Lone c := by
  obtain ⟨i, k, g, handedBack, held, current, trial, other⟩ := intrudes
  obtain ⟨since, probe, halfOpen⟩ := trial.halfOpen
  obtain ⟨h, heldTrial, currentTrial, young⟩ := trial.young
  have before := dated.since i h heldTrial
  have freed : t = ⟨s.now, { s.breaker with phase := .halfOpen since none },
      Function.update s.out k none⟩ := by
    have released := Breaker.releaseProbe_halfOpen halfOpen current
    cases move with
    | wait => exact handedBack.elim
    | acquire => exact handedBack.elim
    | @report j h' held' failure =>
      obtain ⟨rfl, unjudged⟩ := handedBack
      obtain rfl := Option.some.inj (held.symm.trans held')
      rw [Breaker.record_unjudged unjudged, released]
    | @release j h' held' =>
      obtain rfl : j = k := handedBack
      obtain rfl := Option.some.inj (held.symm.trans held')
      rw [released]
  subst freed
  refine ⟨k, _, .acquire (Function.update_self k none s.out), ?_⟩
  intro lone
  refine other (lone i k ?first ?second)
  case first =>
    refine ⟨⟨since, some s.now, rfl⟩, h, ?_, currentTrial, young⟩
    simp only [Function.update_of_ne other]
    exact heldTrial
  case second =>
    refine ⟨⟨since, some s.now, rfl⟩, ⟨⟨s.breaker.epoch⟩, s.now⟩, ?_, rfl, ?_⟩
    · exact Function.update_self _ _ _
    · change s.now < s.now + c.cooldown
      omega

/-- As long as no call hands back an admission while another one is on trial, there is one trial at
most at every moment; and from then on, a move makes room for a second one exactly if it is such a
hand-back. -/
theorem second_trial_iff_intrusion {now : Nat}
    (run : Runs c (fun s m => ¬ s.Intrudes c m) (new now) s) :
    s.Lone c ∧ ∀ m t, Moves c s m t →
      ((∃ i u, Moves c t (.acquire i) u ∧ ¬ u.Lone c) ↔ s.Intrudes c m) := by
  have single := runs_single (new_single now) run
  refine ⟨single.lone, ?_⟩
  intro m t move
  constructor
  · rintro ⟨i, u, admits, crowded⟩
    by_contra keeps
    have grants : ¬ t.Intrudes c (.acquire i) := by
      rintro ⟨_, _, _, never, _⟩
      exact never
    exact crowded (moves_single (moves_single single keeps move) grants admits).lone
  · intro intrudes
    exact second_of_intrudes single.dated intrudes move

theorem Moves.tries {s : Callers} {i : Nat} (b : Breaker) (a : Admission) (free : s.out i = none)
    (granted : s.breaker.tryAcquire c s.now = (b, some a)) :
    Moves c s (.acquire i) ⟨s.now, b, Function.update s.out i (some ⟨a, s.now⟩)⟩ := by
  have move : Moves c s (.acquire i) _ := .acquire free
  rwa [granted] at move

/-- A trial that has lost its slot is out beside its successor, and its release makes room for a
third one. -/
theorem late_release_makes_room :
    ∃ s t, Runs { failureThreshold := 1 } (fun s m => ¬ s.Intrudes { failureThreshold := 1 } m)
        (new 0) s ∧
      s.Trial { failureThreshold := 1 } 2 ∧ s.Lone { failureThreshold := 1 } ∧
      Moves { failureThreshold := 1 } s (.release 1) t ∧
      ∃ i u, Moves { failureThreshold := 1 } t (.acquire i) u ∧
        ¬ u.Lone { failureThreshold := 1 } := by
  let c : BreakerConfig := { failureThreshold := 1 }
  let keeps : Callers → Move → Prop := fun s m => ¬ s.Intrudes c m
  have acquires (s : Callers) (i : Nat) : keeps s (.acquire i) := fun ⟨_, _, _, never, _⟩ => never
  have waits (s : Callers) (ms : Nat) : keeps s (.wait ms) := fun ⟨_, _, _, never, _⟩ => never
  have fails (s : Callers) (i : Nat) : keeps s (.report i (some (.transient ""))) :=
    fun ⟨_, _, _, never, _⟩ => never.2
  have opened : Runs c keeps (new 0) ⟨0, ⟨.opened 0, 1, 1⟩, _⟩ :=
    (Runs.refl.step (acquires _ 0) (.tries {} ⟨0⟩ rfl rfl)).step (fails _ 0)
      (.report (g := ⟨⟨0⟩, 0⟩) rfl _)
  have tried := (opened.step (waits _ 30000) (.wait _)).step (acquires _ 1)
    (.tries ⟨.halfOpen 0 (some 30000), 1, 1⟩ ⟨1⟩ rfl (by decide +kernel))
  have run := (tried.step (waits _ 30000) (.wait _)).step (acquires _ 2)
    (.tries ⟨.halfOpen 0 (some 60000), 1, 1⟩ ⟨1⟩ rfl (by decide +kernel))
  obtain ⟨lone, room⟩ := second_trial_iff_intrusion run
  refine ⟨_, _, run, ?trial, lone, .release rfl,
    (room _ _ (.release rfl)).mpr ⟨2, 1, _, rfl, rfl, rfl, ?trial, by decide⟩⟩
  case trial => exact ⟨⟨_, _, rfl⟩, _, rfl, rfl, by decide⟩

/-- Two calls are on trial at once: the release of an earlier one, a cooldown late, lets the second
one in. -/
theorem two_trials_at_once :
    ∃ s, Runs { failureThreshold := 1 } (fun _ _ => True) (new 0) s ∧
      s.Trial { failureThreshold := 1 } 2 ∧ s.Trial { failureThreshold := 1 } 3 := by
  let c : BreakerConfig := { failureThreshold := 1 }
  have opened : Runs c (fun _ _ => True) (new 0) ⟨0, ⟨.opened 0, 1, 1⟩, _⟩ :=
    (Runs.refl.step trivial (.tries (i := 0) {} ⟨0⟩ rfl rfl)).step trivial
      (.report (i := 0) (g := ⟨⟨0⟩, 0⟩) rfl (some (.transient "")))
  have tried := (opened.step trivial (.wait 30000)).step trivial
    (.tries (i := 1) ⟨.halfOpen 0 (some 30000), 1, 1⟩ ⟨1⟩ rfl (by decide +kernel))
  have overtaken := (tried.step trivial (.wait 30000)).step trivial
    (.tries (i := 2) ⟨.halfOpen 0 (some 60000), 1, 1⟩ ⟨1⟩ rfl (by decide +kernel))
  have run := (overtaken.step trivial (.release (i := 1) rfl)).step trivial
    (.tries (i := 3) ⟨.halfOpen 0 (some 60000), 1, 1⟩ ⟨1⟩ rfl (by decide +kernel))
  refine ⟨_, run, ⟨⟨_, _, rfl⟩, _, rfl, rfl, ?_⟩, ⟨⟨_, _, rfl⟩, _, rfl, rfl, ?_⟩⟩
  · decide
  · decide

end FuturesDesk.Callers
