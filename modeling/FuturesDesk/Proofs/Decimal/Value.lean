import FuturesDesk.Decimal.Basic
import Mathlib.Algebra.Order.Field.Rat
import Mathlib.Tactic.FieldSimp
import Mathlib.Tactic.Linarith
import Mathlib.Tactic.Positivity

/-! The number that a decimal stands for. Places are lost here, and the order, signs, negation and
size of decimals are those of their numbers. -/
namespace FuturesDesk.Decimal

def value (d : Decimal) : ℚ := d.coefficient / (10 : ℚ) ^ d.scale

/-- The order over a common power of ten. -/
theorem ratio_le_iff {m n : Int} {s t : Nat} :
    (m : ℚ) / 10 ^ s ≤ n / 10 ^ t ↔ m * tenTo t ≤ n * tenTo s := by
  rw [div_le_div_iff₀ (by positivity) (by positivity)]
  simp only [Nat.pow_eq, Nat.cast_pow, Nat.cast_ofNat]
  exact_mod_cast Iff.rfl

theorem le_iff_value {a b : Decimal} : a ≤ b ↔ a.value ≤ b.value :=
  le_def.trans ratio_le_iff.symm

theorem lt_iff_value {a b : Decimal} : a < b ↔ a.value < b.value := by
  rw [← not_le, ← le_iff_value, le_def, lt_def, Int.not_le]

theorem not_le_iff {a b : Decimal} : ¬ a ≤ b ↔ b < a := by
  rw [le_iff_value, lt_iff_value, not_le]

theorem value_nonneg_iff {a : Decimal} : 0 ≤ a.value ↔ 0 ≤ a.coefficient := by
  rw [value, le_div_iff₀ (by positivity), zero_mul]
  exact Int.cast_nonneg_iff

theorem value_eq_zero_iff {a : Decimal} : a.value = 0 ↔ a.coefficient = 0 := by
  rw [value, div_eq_zero_iff]
  simp

@[simp] theorem value_zero : zero.value = 0 := by simp [value, zero]

@[simp] theorem value_one : one.value = 1 := by simp [value, one]

@[simp] theorem value_negOne : negOne.value = -1 := by simp [value, negOne]

@[simp] theorem value_neg (a : Decimal) : (-a).value = -a.value := by
  simp [value, neg_div]

@[simp] theorem value_abs (a : Decimal) : a.abs.value = |a.value| := by
  rw [value, value, abs_div, abs_of_pos (show (0 : ℚ) < 10 ^ a.scale by positivity), abs_coefficient,
    abs_scale]
  simp

theorem isZero_iff {a : Decimal} : a.isZero = true ↔ a.value = 0 := by
  rw [value_eq_zero_iff, isZero, decide_eq_true_iff]

theorem isNonneg_iff {a : Decimal} : a.isNonneg = true ↔ 0 ≤ a.value := by
  rw [value_nonneg_iff, isNonneg, decide_eq_true_iff]

theorem zero_lt_iff_value {a : Decimal} : zero < a ↔ 0 < a.value := by
  rw [lt_iff_value, value_zero]

theorem le_zero_iff_value {a : Decimal} : a ≤ zero ↔ a.value ≤ 0 := by
  rw [le_iff_value, value_zero]

theorem value_min (a b : Decimal) : (a.min b).value = Min.min a.value b.value := by
  rw [min, min_def]
  split
  case isTrue less => rw [if_neg (not_le.mpr (lt_iff_value.mp less))]
  case isFalse atMost => rw [if_pos (not_lt.mp (mt lt_iff_value.mpr atMost))]

end FuturesDesk.Decimal
