import FuturesDesk.Proofs.Decimal.Division
import FuturesDesk.Proofs.Strategy.Uses

/-! The fields of a trailing stop. A stop kept as four separate fields, whose prices are zero while
flat only because a reset clears them, answers every use as the stop does whose position carries its
prices, and moves in step with it. -/
namespace FuturesDesk.TrailingStop

/-- The fields of a trailing stop, each on its own. -/
structure Cells where
  position : Option Direction
  entry : Decimal
  extreme : Decimal
  percent : Decimal
  deriving DecidableEq

namespace Cells

def ofPercent (percent : Decimal) : Except TrackerError Cells :=
  if percent ≤ .zero ∨ .hundred ≤ percent then .error (.invalidPercent percent)
  else .ok ⟨none, .zero, .zero, percent⟩

def isOpen (s : Cells) : Bool := s.position.isSome

def enter (s : Cells) (direction : Direction) (price : Decimal) : Except TrackerError Cells :=
  if s.isOpen then .error (.alreadyOpen s.entry)
  else if price ≤ .zero then .error (.invalidPrice price)
  else .ok { s with position := some direction, entry := price, extreme := price }

def isImprovedBy (s : Cells) (price : Decimal) : Direction → Bool
  | .long => s.extreme < price
  | .short => price < s.extreme

def observe (s : Cells) (price : Decimal) : Except TrackerError Cells :=
  match s.position with
  | none => .error .notOpen
  | some direction =>
    if s.isImprovedBy price direction then .ok { s with extreme := price } else .ok s

/-- The percentage is divided before the position is looked at. -/
def stopPrice? (s : Cells) : Except Decimal.Fault (Option Decimal) := do
  let fraction ← s.percent.div .hundred
  match s.position with
  | none => return none
  | some .long => return some (← s.extreme.mul (← Decimal.one.sub fraction))
  | some .short => return some (← s.extreme.mul (← Decimal.one.add fraction))

def isReachedBy (s : Cells) (price : Decimal) : Except Decimal.Fault Bool := do
  match s.position, ← s.stopPrice? with
  | some .long, some stop => return price ≤ stop
  | some .short, some stop => return stop ≤ price
  | _, _ => return false

def reset (s : Cells) : Cells := { s with position := none, entry := .zero, extreme := .zero }

def perform (s : Cells) : Use → Reply × Cells
  | .enter direction price => Use.attempt s (s.enter direction price)
  | .observe price => Use.attempt s (s.observe price)
  | .check price =>
    match s.isReachedBy price with
    | .ok reached => (.checked reached, s)
    | .error f => (.fault f, s)
  | .reset => (.done, s.reset)

def run (s : Cells) (uses : List Use) : Cells := uses.foldl (fun s u => (s.perform u).2) s

end Cells

/-- The fields that a trailing stop stands for. -/
def cells (s : TrailingStop) : Cells := ⟨s.direction?, s.entry, s.extreme, s.percent⟩

section
variable (s : TrailingStop) (price : Decimal)

theorem cells_ofPercent (percent : Decimal) :
    Cells.ofPercent percent = (ofPercent percent).map cells := by
  rw [Cells.ofPercent, ofPercent]
  split <;> rfl

theorem cells_enter (direction : Direction) :
    s.cells.enter direction price = (s.enter direction price).map cells := by
  obtain ⟨percent, _ | p⟩ := s
  · simp only [Cells.enter, enter, Cells.isOpen, cells, direction?, Option.map_none,
      Option.isSome_none, Bool.false_eq_true, if_false]
    split <;> rfl
  · rfl

theorem cells_observe : s.cells.observe price = (s.observe price).map cells := by
  obtain ⟨percent, _ | p⟩ := s
  · rfl
  · have open_ : (cells ⟨percent, some p⟩).position = some p.direction := rfl
    have improved : (cells ⟨percent, some p⟩).isImprovedBy price p.direction =
        TrackedPosition.isImprovedBy p price := by
      rw [TrackedPosition.isImprovedBy]
      cases p.direction <;> rfl
    simp only [Cells.observe, observe, open_, improved]
    cases TrackedPosition.isImprovedBy p price <;> rfl

theorem cells_reset : s.cells.reset = s.reset.cells := rfl

theorem cells_stopPrice? : s.cells.stopPrice? = s.stopPrice? := by
  obtain ⟨percent, _ | ⟨direction, entered, best⟩⟩ := s
  · -- The division is all that could fail while flat, and a hundredth always has a value.
    obtain ⟨fraction, divided⟩ : ∃ fraction, percent.div .hundred = .ok fraction :=
      percent.div_ofWord (n := 100) (by decide)
    change (do let _ ← percent.div .hundred; pure none) = _
    rw [divided]
    rfl
  · change _ = some <$> stopOf percent ⟨direction, entered, best⟩
    rw [stopOf, Cells.stopPrice?]
    cases direction <;> simp [map_bind, cells, direction?, extreme]

theorem cells_isReachedBy :
    s.cells.isReachedBy price = (s.triggeredStop? price).map Option.isSome := by
  rw [Cells.isReachedBy, cells_stopPrice?]
  obtain ⟨percent, _ | ⟨direction, entered, best⟩⟩ := s
  · rfl
  · simp only [stopPrice?, triggeredStop?, cells, direction?, Option.map_some]
    cases stopOf percent ⟨direction, entered, best⟩ with
    | error f => cases direction <;> rfl
    | ok stop =>
      have asked (reached : Bool) : reached = (if reached then some stop else none).isSome := by
        cases reached <;> rfl
      cases direction with
      | long => exact congrArg Except.ok (asked (price ≤ stop))
      | short => exact congrArg Except.ok (asked (stop ≤ price))

/-- A use has the same answer on the fields, and changes them alike. -/
theorem cells_perform (u : Use) : s.cells.perform u = ((u.perform s).1, (u.perform s).2.cells) := by
  have attempted (result : Except TrackerError TrailingStop) :
      Use.attempt s.cells (result.map cells) =
        ((Use.attempt s result).1, (Use.attempt s result).2.cells) := by
    cases result <;> rfl
  cases u with
  | enter direction price => rw [Cells.perform, cells_enter, attempted, Use.perform]
  | observe price => rw [Cells.perform, cells_observe, attempted, Use.perform]
  | check price =>
    simp only [Cells.perform, cells_isReachedBy, Use.perform]
    cases s.triggeredStop? price <;> rfl
  | reset => rw [Cells.perform, cells_reset, Use.perform]

theorem cells_run (uses : List Use) : s.cells.run uses = (s.run uses).cells := by
  induction uses generalizing s with
  | nil => rfl
  | cons u rest ih =>
    change (s.cells.perform u).2.run rest = ((u.perform s).2.run rest).cells
    rw [cells_perform, ih]

theorem cells_flat {s : TrailingStop} (flat : s.cells.isOpen = false) :
    s.cells.entry = .zero ∧ s.cells.extreme = .zero := by
  obtain ⟨percent, _ | p⟩ := s
  · exact ⟨rfl, rfl⟩
  · cases flat

end

/-- However a trailing stop is used, its fields are those that it stands for, and they give the same
answers. While flat its prices are zero: nothing but a reset ends a position, and a reset clears
them. -/
theorem fields_in_step {percent : Decimal} {new : TrailingStop}
    (made : ofPercent percent = .ok new) (uses : List Use) :
    Cells.ofPercent percent = .ok new.cells ∧
      new.cells.run uses = (new.run uses).cells ∧
      (∀ u, ((new.cells.run uses).perform u).1 = (u.perform (new.run uses)).1) ∧
      ((new.cells.run uses).isOpen = false →
        (new.cells.run uses).entry = .zero ∧ (new.cells.run uses).extreme = .zero) := by
  have fields := new.cells_run uses
  refine ⟨?_, fields, ?_, ?_⟩
  · rw [cells_ofPercent, made]
    rfl
  · intro u
    rw [fields, cells_perform]
  · intro flat
    rw [fields] at flat ⊢
    exact cells_flat flat

end FuturesDesk.TrailingStop
