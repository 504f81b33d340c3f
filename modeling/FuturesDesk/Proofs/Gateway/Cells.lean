import FuturesDesk.Proofs.Gateway.Epochs
import FuturesDesk.Proofs.Gateway.Window

/-! The fields of a breaker. A breaker kept as six separate fields, where nothing but the operations
holds the fields together, moves in step with the breaker whose phases carry their own data. So the
fields always agree with each other, whatever the callers do with their admissions. -/
namespace FuturesDesk

namespace Breaker

inductive State where
  | closed
  | opened
  | halfOpen
  deriving DecidableEq, Repr

/-- The fields of a breaker, each on its own. -/
structure Cells where
  state : State := .closed
  epoch : Nat := 0
  failures : List Nat := []
  openedAt : Option Nat := none
  probeStarted : Option Nat := none
  totalOpens : Nat := 0
  deriving DecidableEq, Repr

namespace Cells

def tryAcquire (c : BreakerConfig) (now : Nat) (s : Cells) : Cells × Option Admission :=
  match s.state with
  | .closed => (s, some ⟨s.epoch⟩)
  | .opened =>
    if s.openedAt.all (cooledDown c now) then
      ({ s with state := .halfOpen, probeStarted := some now }, some ⟨s.epoch⟩)
    else (s, none)
  | .halfOpen =>
    if s.probeStarted.all (cooledDown c now) then
      ({ s with probeStarted := some now }, some ⟨s.epoch⟩)
    else (s, none)

def trip (now : Nat) (s : Cells) : Cells where
  state := .opened
  epoch := s.epoch + 1
  failures := []
  openedAt := some now
  probeStarted := none
  totalOpens := s.totalOpens + 1

/-- The state in which a report on an admission is judged, if it is one of the present epoch. -/
def judgedIn? (a : Admission) (s : Cells) : Option State :=
  if s.epoch = a.epoch then some s.state else none

def recordSuccess (a : Admission) (s : Cells) : Cells :=
  match s.judgedIn? a with
  | some .halfOpen =>
    { s with state := .closed, failures := [], openedAt := none, probeStarted := none }
  | _ => s

def recordFailure (c : BreakerConfig) (now : Nat) (a : Admission) (s : Cells) : Cells :=
  match s.judgedIn? a with
  | some .halfOpen => s.trip now
  | some .closed =>
    let s := { s with failures := recentFailures c now s.failures }
    if c.failureThreshold ≤ s.failures.length then s.trip now else s
  | some .opened => s
  | none => s

def releaseProbe (a : Admission) (s : Cells) : Cells :=
  match s.judgedIn? a with
  | some .halfOpen => { s with probeStarted := none }
  | _ => s

def record (c : BreakerConfig) (now : Nat) (a : Admission) (failure : Option GatewayError)
    (s : Cells) : Cells :=
  match failure with
  | some (.transient _) => s.recordFailure c now a
  | some (.rateLimited _) | some (.circuitOpen _) => s.releaseProbe a
  | _ => s.recordSuccess a

end Cells

/-- The fields that a breaker stands for. -/
def cells (b : Breaker) : Cells :=
  let still : Cells := { epoch := b.epoch, totalOpens := b.totalOpens }
  match b.phase with
  | .closed failures => { still with failures }
  | .opened since => { still with state := .opened, openedAt := some since }
  | .halfOpen since probe =>
    { still with state := .halfOpen, openedAt := some since, probeStarted := probe }

section
variable (c : BreakerConfig) (now : Nat) (a : Admission) (b : Breaker)

@[simp] theorem cells_epoch : b.cells.epoch = b.epoch := by
  cases phase : b.phase <;> simp only [cells, phase]

theorem cells_tryAcquire :
    b.cells.tryAcquire c now = ((b.tryAcquire c now).1.cells, (b.tryAcquire c now).2) := by
  cases phase : b.phase with
  | closed failures => simp only [Cells.tryAcquire, tryAcquire, cells, phase]
  | opened since =>
    simp only [Cells.tryAcquire, tryAcquire, cells, phase, Option.all_some]
    split <;> simp only [phase]
  | halfOpen since probe =>
    simp only [Cells.tryAcquire, tryAcquire, cells, phase]
    split <;> simp only [phase]

theorem judgedIn?_cells_of_outdated {a : Admission} {b : Breaker} (outdated : b.epoch ≠ a.epoch) :
    b.cells.judgedIn? a = none := by
  simp only [Cells.judgedIn?, cells_epoch, outdated, if_false]

theorem judgedIn?_cells_of_current {a : Admission} {b : Breaker} (current : b.epoch = a.epoch) :
    b.cells.judgedIn? a = some b.cells.state := by
  simp only [Cells.judgedIn?, cells_epoch, current, if_true]

theorem cells_recordSuccess : b.cells.recordSuccess a = (b.recordSuccess a).cells := by
  by_cases current : b.epoch = a.epoch
  · rw [Cells.recordSuccess, judgedIn?_cells_of_current current]
    cases phase : b.phase <;> simp [recordSuccess, current, cells, phase]
  · rw [Cells.recordSuccess, judgedIn?_cells_of_outdated current,
      show b.recordSuccess a = b by simp [recordSuccess, current]]

theorem cells_releaseProbe : b.cells.releaseProbe a = (b.releaseProbe a).cells := by
  by_cases current : b.epoch = a.epoch
  · rw [Cells.releaseProbe, judgedIn?_cells_of_current current]
    cases phase : b.phase <;> simp [releaseProbe, current, cells, phase]
  · rw [Cells.releaseProbe, judgedIn?_cells_of_outdated current,
      releaseProbe_outdated (Ne.symm current)]

theorem cells_recordFailure :
    b.cells.recordFailure c now a = (b.recordFailure c now a).cells := by
  by_cases current : b.epoch = a.epoch
  · rw [Cells.recordFailure, judgedIn?_cells_of_current current]
    cases phase : b.phase with
    | closed failures =>
      simp only [recordFailure, current, cells, phase, ne_eq, not_true_eq_false, if_false]
      split <;> simp only [Cells.trip, trip, current]
    | opened since => simp [recordFailure, current, cells, phase]
    | halfOpen since probe =>
      simp only [recordFailure, current, cells, phase, ne_eq, not_true_eq_false, if_false,
        Cells.trip, trip]
  · rw [Cells.recordFailure, judgedIn?_cells_of_outdated current,
      show b.recordFailure c now a = b by simp [recordFailure, current]]

theorem cells_record (failure : Option GatewayError) :
    b.cells.record c now a failure = (b.record c now a failure).cells := by
  rcases failure with _ | (_ | _ | _ | _ | _)
  all_goals first
    | exact cells_recordFailure c now a b
    | exact cells_releaseProbe a b
    | exact cells_recordSuccess a b

end

end Breaker

/-- A breaker of separate fields, and the admissions that its callers keep. -/
structure CellGate where
  cells : Breaker.Cells := {}
  kept : Nat → Option Admission := fun _ => none

namespace CellGate

/-- The gate after an event. Admissions come from the breaker only, and may be used again. -/
def next (c : BreakerConfig) (g : CellGate) (e : Gate.Event) : CellGate :=
  match e.act with
  | .acquire i =>
    ⟨(g.cells.tryAcquire c e.now).1,
      Function.update g.kept i (g.cells.tryAcquire c e.now).2⟩
  | .report i failure =>
    match g.kept i with
    | some a => { g with cells := g.cells.record c e.now a failure }
    | none => g
  | .release i =>
    match g.kept i with
    | some a => { g with cells := g.cells.releaseProbe a }
    | none => g

def run (c : BreakerConfig) (g : CellGate) (events : List Gate.Event) : CellGate :=
  events.foldl (next c) g

structure Consistent (c : BreakerConfig) (g : CellGate) : Prop where
  counted : g.cells.epoch = g.cells.totalOpens
  dated : ∀ i a, g.kept i = some a → a.epoch ≤ g.cells.epoch
  closed : g.cells.state = .closed → g.cells.openedAt = none ∧ g.cells.probeStarted = none ∧
    g.cells.failures.Pairwise (· ≤ ·) ∧
    (∀ s ∈ g.cells.failures, ∀ t ∈ g.cells.failures, t ≤ s + c.window) ∧
    g.cells.failures.length < c.failureThreshold
  opened : g.cells.state = .opened → g.cells.openedAt.isSome = true ∧
    g.cells.probeStarted = none ∧ g.cells.failures = [] ∧
    ∀ i a, g.kept i = some a → a.epoch ≠ g.cells.epoch
  halfOpen : g.cells.state = .halfOpen → g.cells.openedAt.isSome = true ∧ g.cells.failures = []

end CellGate

namespace Gate

variable {c : BreakerConfig} {g : Gate} {e : Event} {events : List Event}

def cellGate (g : Gate) : CellGate := ⟨g.breaker.cells, fun i => (g.kept i).map (·.admission)⟩

theorem cellGate_turn (b : Breaker) : (g.turn b).cellGate = { g.cellGate with cells := b.cells } := by
  simp only [cellGate, turn, Option.map_map]
  rfl

theorem next_cellGate (c : BreakerConfig) (g : Gate) (e : Event) :
    g.cellGate.next c e = (g.next c e).cellGate := by
  have held (i : Nat) : g.cellGate.kept i = (g.kept i).map (·.admission) := rfl
  fun_cases next with
  | case1 i act =>
    have asked := g.breaker.cells_tryAcquire c e.now
    simp only [CellGate.next, act, cellGate, asked, CellGate.mk.injEq, true_and]
    funext j
    by_cases same : j = i
    · subst same
      cases (g.breaker.tryAcquire c e.now).2 <;> simp
    · simp [same]
  | case2 i failure act p granted =>
    have heard : g.cellGate.cells.record c e.now p.admission failure = _ :=
      g.breaker.cells_record c e.now p.admission failure
    simp only [CellGate.next, act, held, granted, Option.map_some, heard, cellGate_turn]
  | case3 i failure act unheld =>
    simp only [CellGate.next, act, held, unheld, Option.map_none]
  | case4 i act p granted =>
    have heard : g.cellGate.cells.releaseProbe p.admission = _ :=
      g.breaker.cells_releaseProbe p.admission
    simp only [CellGate.next, act, held, granted, Option.map_some, heard, cellGate_turn]
  | case5 i act unheld =>
    simp only [CellGate.next, act, held, unheld, Option.map_none]

theorem run_cellGate (c : BreakerConfig) (g : Gate) (events : List Event) :
    g.cellGate.run c events = (g.run c events).cellGate := by
  induction events generalizing g with
  | nil => rfl
  | cons first rest ih =>
    change (g.cellGate.next c first).run c rest = ((g.next c first).run c rest).cellGate
    rw [next_cellGate, ih]

/-- The epoch counts the trips, and an open circuit has granted nothing since the last of them. -/
structure Numbered (g : Gate) : Prop where
  counted : g.breaker.epoch = g.breaker.totalOpens
  dated : g.Dated
  opened : ∀ since, g.breaker.phase = .opened since →
    ∀ i p, g.kept i = some p → p.admission.epoch < g.breaker.epoch

theorem new_numbered : Numbered {} := ⟨rfl, new_dated, nofun⟩

theorem next_counted (counted : g.breaker.epoch = g.breaker.totalOpens) :
    (g.next c e).breaker.epoch = (g.next c e).breaker.totalOpens := by
  have ends := next_ends c g e
  generalize g.next c e = after at ends
  cases ends with
  | acquired _ acquires => cases acquires <;> exact counted
  | heard _ hears =>
    cases hears with
    | tripped => exact congrArg (· + 1) counted
    | _ => exact counted
  | unheld => exact counted

theorem next_opened_outdates (numbered : g.Numbered) (since : Nat)
    (opened : (g.next c e).breaker.phase = .opened since) (i : Nat) (p : Pass)
    (held : (g.next c e).kept i = some p) : p.admission.epoch < (g.next c e).breaker.epoch := by
  have ends := next_ends c g e
  generalize g.next c e = after at ends opened held
  cases ends with
  | acquired _ acquires =>
    obtain ⟨rfl, rfl⟩ := acquires.refused opened
    rcases Keyed.of_update held with ⟨_, never⟩ | ⟨_, before⟩
    · cases never
    · exact numbered.opened since opened i p before
  | heard _ hears =>
    obtain ⟨q, before, rfl⟩ := Option.map_eq_some_iff.mp held
    cases hears with
    | ignored => exact numbered.opened since opened i q before
    | settled => cases opened
    | tripped => exact Nat.lt_succ_of_le (numbered.dated.epoch i q before)
    | freed => cases opened
  | unheld => exact numbered.opened since opened i p held

theorem next_numbered (numbered : g.Numbered) : (g.next c e).Numbered :=
  ⟨next_counted numbered.counted, next_dated numbered.dated, next_opened_outdates numbered⟩

theorem run_numbered (numbered : g.Numbered) : (g.run c events).Numbered := by
  induction events generalizing g with
  | nil => exact numbered
  | cons first rest ih => exact ih (next_numbered numbered)

/-- What a closed circuit remembers is in order, within one window and short of the threshold. -/
structure Recalls (c : BreakerConfig) (failures : List Nat) : Prop where
  sorted : failures.Pairwise (· ≤ ·)
  within : ∀ s ∈ failures, ∀ t ∈ failures, t ≤ s + c.window
  short : failures.length < c.failureThreshold

theorem recalls_nil (threshold : 1 ≤ c.failureThreshold) : Recalls c [] := ⟨.nil, nofun, threshold⟩

theorem run_recalls {failures : List Nat} (threshold : 1 ≤ c.failureThreshold)
    (inOrder : InOrder events) (closed : (run c {} events).breaker.phase = .closed failures) :
    Recalls c failures := by
  induction events using List.reverseRecOn generalizing failures with
  | nil =>
    cases closed
    exact recalls_nil threshold
  | append_singleton events e ih =>
    obtain ⟨inOrder, _, ordered⟩ := List.pairwise_append.mp inOrder
    have earlier : ∀ d ∈ events, d.now ≤ e.now :=
      fun d member => ordered d member e List.mem_cons_self
    rw [run_concat] at closed
    cases before : (run c {} events).breaker.isClosed with
    | false =>
      obtain ⟨_, rfl⟩ := next_closes before closed
      exact recalls_nil threshold
    | true =>
      obtain ⟨remembered, phase⟩ := Breaker.isClosed_iff.mp before
      rw [next_closed phase] at closed
      split at closed
      · split at closed
        case isTrue => cases closed
        case isFalse short =>
          -- The window that ends at the new outage covers everything that is left.
          cases closed
          have recent := (run_remembers inOrder earlier phase).recent
          have pushed := (run_remembers inOrder earlier phase).push
          refine ⟨pushed.sorted, ?_, Nat.not_le.mp short⟩
          intro s first t second
          have past := pushed.past t second
          rw [recent, List.mem_filter] at first
          have covered : s ≤ e.now ∧ e.now ≤ s + c.window := by
            simpa only [BreakerConfig.covers, decide_eq_true_eq] using first.2
          omega
      · cases phase.symm.trans closed
        exact ih inOrder phase

theorem cellGate_consistent (numbered : g.Numbered)
    (recalls : ∀ failures, g.breaker.phase = .closed failures → Recalls c failures) :
    g.cellGate.Consistent c := by
  have dated : ∀ i a, g.cellGate.kept i = some a → a.epoch ≤ g.breaker.epoch := by
    intro i a held
    obtain ⟨p, granted, rfl⟩ := Option.map_eq_some_iff.mp held
    exact numbered.dated.epoch i p granted
  have outdated : ∀ since, g.breaker.phase = .opened since →
      ∀ i a, g.cellGate.kept i = some a → a.epoch ≠ g.breaker.epoch := by
    intro since opened i a held
    obtain ⟨p, granted, rfl⟩ := Option.map_eq_some_iff.mp held
    exact Nat.ne_of_lt (numbered.opened since opened i p granted)
  have fields : g.cellGate.cells = g.breaker.cells := rfl
  cases phase : g.breaker.phase with
  | closed failures =>
    obtain ⟨sorted, within, short⟩ := recalls failures phase
    simp only [Breaker.cells, phase] at fields
    constructor
    all_goals rw [fields]
    · exact numbered.counted
    · exact dated
    · exact fun _ => ⟨rfl, rfl, sorted, within, short⟩
    · exact nofun
    · exact nofun
  | opened since =>
    simp only [Breaker.cells, phase] at fields
    constructor
    all_goals rw [fields]
    · exact numbered.counted
    · exact dated
    · exact nofun
    · exact fun _ => ⟨rfl, rfl, rfl, outdated since phase⟩
    · exact nofun
  | halfOpen since probe =>
    simp only [Breaker.cells, phase] at fields
    constructor
    all_goals rw [fields]
    · exact numbered.counted
    · exact dated
    · exact nofun
    · exact nofun
    · exact fun _ => ⟨rfl, rfl⟩

end Gate

namespace CellGate

/-- No report on an admission that a caller keeps is judged by an open circuit. -/
theorem Consistent.not_judged_opened {c : BreakerConfig} {g : CellGate} (consistent : g.Consistent c)
    {i : Nat} {a : Admission} (held : g.kept i = some a) :
    g.cells.judgedIn? a ≠ some .opened := by
  rw [Breaker.Cells.judgedIn?]
  split
  case isTrue current =>
    intro opened
    have outdated := (consistent.opened (Option.some.inj opened)).2.2.2
    exact outdated i a held current.symm
  case isFalse => exact nofun

/-- The fields of a breaker agree with each other after every history, in which callers may report
late, again or never: they are those of the breaker whose phases carry their data, and an open
circuit judges no report. -/
theorem fields_stay_consistent {c : BreakerConfig} {events : List Gate.Event} {g : CellGate}
    (threshold : 1 ≤ c.failureThreshold) (inOrder : Gate.InOrder events)
    (reached : run c {} events = g) :
    g = (Gate.run c {} events).cellGate ∧ g.Consistent c ∧
      ∀ i a, g.kept i = some a → g.cells.judgedIn? a ≠ some .opened := by
  have view : g = (Gate.run c {} events).cellGate := reached.symm.trans (Gate.run_cellGate c {} events)
  have consistent : g.Consistent c := by
    rw [view]
    refine Gate.cellGate_consistent (Gate.run_numbered Gate.new_numbered) ?_
    intro failures closed
    exact Gate.run_recalls threshold inOrder closed
  exact ⟨view, consistent, fun _ _ held => consistent.not_judged_opened held⟩

/-- Two outages open the circuit, and the trial call after the cooldown fails. A caller reports on an
admission from before the first trip, and another one reports the trial's outage again: the circuit
is open, and neither of the two counts. -/
theorem repeated_reports_consistent :
    ∃ g, run { failureThreshold := 2 } {} [⟨0, .acquire 0⟩, ⟨0, .acquire 1⟩, ⟨0, .acquire 2⟩,
        ⟨10, .report 0 (some (.transient ""))⟩, ⟨20, .report 1 (some (.transient ""))⟩,
        ⟨30020, .acquire 3⟩, ⟨30030, .report 3 (some (.transient ""))⟩,
        ⟨30040, .report 3 (some (.transient ""))⟩, ⟨30050, .report 2 none⟩] = g ∧
      g.cells = { state := .opened, epoch := 2, openedAt := some 30030, totalOpens := 2 } ∧
      g.Consistent { failureThreshold := 2 } ∧ g.kept 3 = some ⟨1⟩ ∧
      g.cells.judgedIn? ⟨1⟩ ≠ some .opened := by
  let events : List Gate.Event := [⟨0, .acquire 0⟩, ⟨0, .acquire 1⟩, ⟨0, .acquire 2⟩,
    ⟨10, .report 0 (some (.transient ""))⟩, ⟨20, .report 1 (some (.transient ""))⟩,
    ⟨30020, .acquire 3⟩, ⟨30030, .report 3 (some (.transient ""))⟩,
    ⟨30040, .report 3 (some (.transient ""))⟩, ⟨30050, .report 2 none⟩]
  have inOrder : Gate.InOrder events := by
    simp [Gate.InOrder, events]
  have kept : (run { failureThreshold := 2 } {} events).kept 3 = some ⟨1⟩ := by
    decide +kernel
  obtain ⟨_, consistent, unjudged⟩ :=
    fields_stay_consistent (c := { failureThreshold := 2 }) (by decide) inOrder rfl
  exact ⟨_, rfl, by decide +kernel, consistent, kept, unjudged 3 _ kept⟩

end CellGate

end FuturesDesk
