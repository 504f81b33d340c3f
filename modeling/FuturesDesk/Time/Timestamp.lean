import FuturesDesk.Power

/-! Points in time as whole seconds since 1970-01-01T00:00:00Z and a fraction in nanoseconds. A
fraction of a second or more stands for the leap second after its second. -/
namespace FuturesDesk

structure Timestamp where
  seconds : Int
  nanos : Nat
  nanos_lt : nanos < 2_000_000_000 := by decide
  deriving DecidableEq

namespace Timestamp

/-- Earlier seconds first, then smaller fractions. -/
instance : LT Timestamp :=
  ⟨fun a b => a.seconds < b.seconds ∨ (a.seconds = b.seconds ∧ a.nanos < b.nanos)⟩

instance : LE Timestamp :=
  ⟨fun a b => a.seconds < b.seconds ∨ (a.seconds = b.seconds ∧ a.nanos ≤ b.nanos)⟩

instance (a b : Timestamp) : Decidable (a < b) :=
  inferInstanceAs (Decidable (a.seconds < b.seconds ∨ (a.seconds = b.seconds ∧ a.nanos < b.nanos)))

instance (a b : Timestamp) : Decidable (a ≤ b) :=
  inferInstanceAs (Decidable (a.seconds < b.seconds ∨ (a.seconds = b.seconds ∧ a.nanos ≤ b.nanos)))

theorem lt_def {a b : Timestamp} :
    a < b ↔ a.seconds < b.seconds ∨ (a.seconds = b.seconds ∧ a.nanos < b.nanos) := Iff.rfl

theorem le_def {a b : Timestamp} :
    a ≤ b ↔ a.seconds < b.seconds ∨ (a.seconds = b.seconds ∧ a.nanos ≤ b.nanos) := Iff.rfl

theorem not_le {a b : Timestamp} : ¬ a ≤ b ↔ b < a := by
  simp only [lt_def, le_def]
  omega

/-- The first and the last second of the supported calendar, in the years -262143 and 262142. -/
def firstSecond : Int := -8334601228800

def lastSecond : Int := 8210266876799

def ofMillis (millis : Int) : Timestamp where
  seconds := millis / 1000
  nanos := (millis % 1000).toNat * 1_000_000
  nanos_lt := by omega

/-- The point a number of milliseconds after the epoch, if it is in the calendar. -/
def ofMillis? (millis : Int) : Option Timestamp :=
  let t := ofMillis millis
  if firstSecond ≤ t.seconds ∧ t.seconds ≤ lastSecond then some t else none

/-- Milliseconds since the epoch, rounded down. -/
def toMillis (t : Timestamp) : Int := t.seconds * 1000 + (t.nanos / 1_000_000 : Nat)

end Timestamp

end FuturesDesk
