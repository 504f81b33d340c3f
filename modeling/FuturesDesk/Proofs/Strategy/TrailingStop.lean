import FuturesDesk.Strategy.TrailingStop

/-! What the operations of a trailing stop do. It is entered only while flat and at a positive price,
an observed price moves nothing but the extreme, and only in favour of the position. -/
namespace FuturesDesk

/-- A position before and after a price: the extreme moves to a price that is better for the
direction, and nothing else moves. -/
structure TrackedPosition.Ratchets (price : Decimal) (p q : TrackedPosition) : Prop where
  direction : q.direction = p.direction
  entry : q.entry = p.entry
  long : p.direction = .long → q.extreme = if p.extreme < price then price else p.extreme
  short : p.direction = .short → q.extreme = if price < p.extreme then price else p.extreme

namespace TrailingStop

def held (s : TrailingStop) : Option (Direction × Decimal) :=
  s.position.map fun p => (p.direction, p.entry)

theorem direction?_eq_held (s : TrailingStop) : s.direction? = s.held.map Prod.fst := by
  cases h : s.position <;> simp [direction?, held, h]

theorem isOpen_eq_held (s : TrailingStop) : s.isOpen = s.held.isSome := by
  cases h : s.position <;> simp [isOpen, held, h]

theorem held_observe {s moved : TrailingStop} {price : Decimal}
    (observed : s.observe price = .ok moved) : moved.held = s.held := by
  simp only [observe] at observed
  split at observed
  · cases observed
  · split at observed
    · cases observed
      simp [held, *]
    · cases observed
      rfl

/-- A flat stop follows a position exactly if it was entered at a positive price. -/
theorem enter_flat {s : TrailingStop} (flat : s.held = none) (direction : Direction)
    (price : Decimal) :
    (∃ followed, s.enter direction price = .ok followed ∧ .zero < price ∧
        followed.held = some (direction, price)) ∨
      (s.enter direction price = .error (.invalidPrice price) ∧ ¬ Decimal.zero < price) := by
  have closed : s.position = none := by simpa [held] using flat
  by_cases low : price ≤ .zero
  · refine .inr ⟨by simp [enter, closed, low], ?_⟩
    rw [Decimal.zero_lt_iff]
    exact Int.not_lt.mpr (Decimal.le_zero_iff.mp low)
  · refine .inl ⟨_, by simp only [enter, closed, if_neg low]; rfl, ?_, rfl⟩
    rw [Decimal.zero_lt_iff]
    exact Int.not_le.mp (mt Decimal.le_zero_iff.mpr low)

theorem enter_error {s : TrailingStop} {direction : Direction} {price : Decimal}
    {e : TrackerError} (refused : s.enter direction price = .error e) :
    ¬ (s.isOpen = false ∧ .zero < price) := by
  rintro ⟨flat, positive⟩
  have unheld : s.held = none := by simpa [isOpen_eq_held] using flat
  obtain ⟨_, followed, _⟩ | ⟨_, low⟩ := enter_flat unheld direction price
  · rw [followed] at refused
    cases refused
  · exact low positive

theorem enter_ok {s followed : TrailingStop} {direction : Direction} {price : Decimal}
    (entered : s.enter direction price = .ok followed) :
    followed.direction? = some direction ∧ s.isOpen = false ∧ .zero < price := by
  have flat : s.held = none := by
    cases position : s.position with
    | none => simp [held, position]
    | some p => simp [enter, position] at entered
  obtain ⟨_, same, positive, held⟩ | ⟨refused, _⟩ := enter_flat flat direction price
  · rw [entered] at same
    cases same
    exact ⟨by simp [direction?_eq_held, held], by simp [isOpen_eq_held, flat], positive⟩
  · rw [entered] at refused
    cases refused

theorem enter_eq {s followed : TrailingStop} {direction : Direction} {price : Decimal}
    (entered : s.enter direction price = .ok followed) :
    s.isOpen = false ∧ followed = { s with position := some ⟨direction, price, price⟩ } := by
  refine ⟨(enter_ok entered).2.1, ?_⟩
  cases position : s.position with
  | some p => simp [enter, position] at entered
  | none =>
    simp only [enter, position] at entered
    split at entered
    · cases entered
    · exact (Except.ok.inj entered).symm

/-- A trailing stop before and after a price that no action followed on. -/
structure Holds (price : Decimal) (s t : TrailingStop) : Prop where
  percent : t.percent = s.percent
  position : Option.Rel (TrackedPosition.Ratchets price) s.position t.position

theorem ratchets_improved (p : TrackedPosition) (price : Decimal) : p.Ratchets price
    { p with extreme := if TrackedPosition.isImprovedBy p price then price else p.extreme } where
  direction := rfl
  entry := rfl
  long direction := by simp only [TrackedPosition.isImprovedBy, direction, decide_eq_true_eq]
  short direction := by simp only [TrackedPosition.isImprovedBy, direction, decide_eq_true_eq]

theorem observe_holds {s moved : TrailingStop} {price : Decimal}
    (observed : s.observe price = .ok moved) : s.Holds price moved := by
  cases position : s.position with
  | none => simp [observe, position] at observed
  | some p =>
    have ratchets := ratchets_improved p price
    simp only [observe, position] at observed
    split at observed
    case isTrue better =>
      cases observed
      rw [if_pos better] at ratchets
      refine ⟨rfl, ?_⟩
      rw [position]
      exact .some ratchets
    case isFalse worse =>
      cases observed
      rw [if_neg worse] at ratchets
      refine ⟨rfl, ?_⟩
      rw [position]
      exact .some ratchets

end TrailingStop

end FuturesDesk
