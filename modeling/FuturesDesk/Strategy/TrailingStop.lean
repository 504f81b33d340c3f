import FuturesDesk.Decimal.Arithmetic
import FuturesDesk.Market.Order

/-! A stop price that trails a position: it stands a fixed percentage behind the best price since
the entry, the highest for a long and the lowest for a short position. -/
namespace FuturesDesk

inductive TrackerError where
  | alreadyOpen (entry : Decimal)
  | notOpen
  | invalidPrice (price : Decimal)
  | invalidPercent (percent : Decimal)
  deriving DecidableEq

def TrackerError.message : TrackerError → String
  | alreadyOpen entry => "trailing stop already tracking a position entered at " ++ entry.toText
  | notOpen => "trailing stop has no open position"
  | invalidPrice price => "price must be positive, got " ++ price.toText
  | invalidPercent percent =>
    "trailing stop percent must be between 0 and 100, got " ++ percent.toText

/-- A position that is being followed. -/
structure TrackedPosition where
  direction : Direction
  entry : Decimal
  /-- The best price so far. -/
  extreme : Decimal
  deriving DecidableEq

structure TrailingStop where
  percent : Decimal
  position : Option TrackedPosition
  deriving DecidableEq

namespace TrailingStop

/-- A stop without a position, for a percentage strictly between 0 and 100. -/
def ofPercent (percent : Decimal) : Except TrackerError TrailingStop :=
  if percent ≤ .zero ∨ .hundred ≤ percent then .error (.invalidPercent percent)
  else .ok ⟨percent, none⟩

def isOpen (s : TrailingStop) : Bool := s.position.isSome

def direction? (s : TrailingStop) : Option Direction := s.position.map (·.direction)

/-- The entry price, zero while flat. -/
def entry (s : TrailingStop) : Decimal := (s.position.map (·.entry)).getD .zero

/-- The best price so far, zero while flat. -/
def extreme (s : TrailingStop) : Decimal := (s.position.map (·.extreme)).getD .zero

/-- Starts to follow a position that was entered at a price. -/
def enter (s : TrailingStop) (direction : Direction) (price : Decimal) :
    Except TrackerError TrailingStop :=
  match s.position with
  | some p => .error (.alreadyOpen p.entry)
  | none =>
    if price ≤ .zero then .error (.invalidPrice price)
    else .ok { s with position := some ⟨direction, price, price⟩ }

/-- Whether a price is better for the position than the extreme. -/
def TrackedPosition.isImprovedBy (p : TrackedPosition) (price : Decimal) : Bool :=
  match p.direction with
  | .long => p.extreme < price
  | .short => price < p.extreme

/-- Moves the extreme to a price that is better. -/
def observe (s : TrailingStop) (price : Decimal) : Except TrackerError TrailingStop :=
  match s.position with
  | none => .error .notOpen
  | some p =>
    if TrackedPosition.isImprovedBy p price then
      .ok { s with position := some { p with extreme := price } }
    else .ok s

/-- The stop price of a position behind its extreme. -/
def stopOf (percent : Decimal) (p : TrackedPosition) : Except Decimal.Fault Decimal := do
  let fraction ← percent.div .hundred
  match p.direction with
  | .long => p.extreme.mul (← Decimal.one.sub fraction)
  | .short => p.extreme.mul (← Decimal.one.add fraction)

/-- The stop price while a position is open. -/
def stopPrice? (s : TrailingStop) : Except Decimal.Fault (Option Decimal) :=
  match s.position with
  | none => .ok none
  | some p => (stopOf s.percent p).map some

/-- The stop price, if a position is open and a price has reached it. -/
def triggeredStop? (s : TrailingStop) (price : Decimal) : Except Decimal.Fault (Option Decimal) :=
  match s.position with
  | none => .ok none
  | some p => do
    let stop ← stopOf s.percent p
    let reached : Bool := match p.direction with
      | .long => price ≤ stop
      | .short => stop ≤ price
    return if reached then some stop else none

def reset (s : TrailingStop) : TrailingStop := { s with position := none }

end TrailingStop

end FuturesDesk
