import FuturesDesk.Proofs.Decimal.Rounding

/-! Where decimals end. A number can be rounded to a decimal exactly when its nearest whole number is
a coefficient; so sums, differences and products fault exactly where the exact ones are beyond that,
and with one cause each. -/
namespace FuturesDesk.Decimal

/-- The nearest whole number, a half going to the even neighbour, is out of range. -/
def Beyond (x : ℚ) : Prop := coefficientBound - 1 / 2 ≤ |x|

/-- Rounding stays below an even bound up to half a unit before it. -/
theorem roundHalfEven_lt_iff {n d bound : Nat} (positive : 0 < d) (even : bound % 2 = 0) :
    roundHalfEven n d < bound ↔ 2 * n + d < 2 * (bound * d) := by
  have split := Nat.div_add_mod n d
  have small := Nat.mod_lt n positive
  have product : d * (n / d) = n / d * d := Nat.mul_comm _ _
  rw [product] at split
  simp only [roundHalfEven]
  generalize n / d = q at *
  generalize n % d = r at *
  rcases lt_trichotomy (q + 1) bound with below | last | above
  · have room : (q + 2) * d ≤ bound * d := Nat.mul_le_mul_right d below
    rw [Nat.add_mul] at room
    constructor
    · omega
    · intro
      split <;> omega
  · -- The last coefficient below an even bound is odd, so that a tie goes to the bound.
    have odd : q % 2 = 1 := by omega
    subst last
    rw [Nat.add_mul, Nat.one_mul]
    split
    case isTrue up =>
      constructor
      · omega
      · omega
    case isFalse down =>
      constructor
      · omega
      · omega
  · have full : bound * d ≤ q * d := Nat.mul_le_mul_right d (by omega)
    constructor
    · split <;> omega
    · omega

theorem fitMagnitude?_isSome_iff {n scale : Nat} :
    (fitMagnitude? n scale).isSome ↔ 2 * n + tenTo scale < 2 * (coefficientBound * tenTo scale) := by
  have positive : 0 < tenTo scale := tenTo_pos scale
  have whole : droppedDigits n scale ≤ scale ↔ n < coefficientBound * tenTo scale :=
    droppedDigits_le_iff.trans (and_iff_left (Nat.le_add_left _ _))
  rw [fitMagnitude?_isSome, whole]
  rcases Nat.lt_or_ge (droppedDigits n scale) scale with fewer | all
  · -- A place is left, so that the whole part is below a tenth of the bound's.
    obtain ⟨k, rfl⟩ := Nat.exists_eq_add_one_of_ne_zero (Nat.ne_of_gt (Nat.zero_lt_of_lt fewer))
    have small := (droppedDigits_le_iff.mp (Nat.le_of_lt_succ fewer)).1
    have grown : coefficientBound * tenTo (k + 1) = coefficientBound * tenTo k * 10 := by
      rw [tenTo_succ, Nat.mul_assoc]
    have least : tenTo k ≤ coefficientBound * tenTo k := Nat.le_mul_of_pos_left _ (by decide)
    rw [grown, tenTo_succ]
    constructor
    · omega
    · intro
      exact ⟨by omega, .inr fewer⟩
  · constructor
    · rintro ⟨inside, below | fewer⟩
      · have same := Nat.le_antisymm (whole.mpr inside) all
        rw [rounded, same] at below
        exact (roundHalfEven_lt_iff positive (by decide)).mp below
      · omega
    · intro near
      have inside : n < coefficientBound * tenTo scale := by omega
      have same := Nat.le_antisymm (whole.mpr inside) all
      refine ⟨inside, .inl ?_⟩
      rw [rounded, same]
      exact (roundHalfEven_lt_iff positive (by decide)).mpr near

/-- A number can be rounded unless it is beyond the range. -/
theorem fit?_eq_none_iff {n : Int} {scale : Nat} :
    fit? n scale = none ↔ Beyond (n / (10 : ℚ) ^ scale) := by
  have power : (0 : ℚ) < 10 ^ scale := by positivity
  have size : |(n : ℚ) / 10 ^ scale| = n.natAbs / (10 : ℚ) ^ scale := by
    rw [abs_div, abs_of_pos power, Nat.cast_natAbs, Int.cast_abs]
  have units : 2 * (coefficientBound * tenTo scale) ≤ 2 * n.natAbs + tenTo scale ↔
      2 * (coefficientBound * 10 ^ scale) ≤ 2 * (n.natAbs : ℚ) + 10 ^ scale := by
    simp only [Nat.pow_eq]
    exact_mod_cast Iff.rfl
  rw [← Option.not_isSome_iff_eq_none, fit?_isSome, fitMagnitude?_isSome_iff, not_lt, units, Beyond,
    size, le_div_iff₀ power, sub_mul]
  generalize (coefficientBound : ℚ) * 10 ^ scale = bound
  constructor
  · intro above
    linarith
  · intro above
    linarith

theorem Rounds.not_beyond {x : ℚ} {d : Decimal} (rounds : Rounds x d) : ¬ Beyond x := by
  obtain ⟨n, scale, c, rfl, found, _⟩ := rounds
  intro beyond
  rw [fit?_eq_none_iff.mpr beyond] at found
  cases found

theorem not_beyond_value (d : Decimal) : ¬ Beyond d.value := (Rounds.ofDecimal d).not_beyond

theorem Beyond.mono {x y : ℚ} (beyond : Beyond x) (larger : |x| ≤ |y|) : Beyond y :=
  beyond.trans larger

theorem beyond_abs {x : ℚ} : Beyond |x| ↔ Beyond x := by
  rw [Beyond, abs_abs, Beyond]

section
variable {a b : Decimal} {cause : Fault}

/-- What lies between decimals is in range. -/
theorem not_beyond_between {x : ℚ} (low : a.value ≤ x) (high : x ≤ b.value) : ¬ Beyond x := by
  intro beyond
  rcases le_max_iff.mp (abs_le_max_abs_abs low high) with left | right
  · exact not_beyond_value a (beyond.mono left)
  · exact not_beyond_value b (beyond.mono right)

theorem add?_eq_none_iff : add? a b = none ↔ Beyond (a.value + b.value) := by
  constructor
  · intro nothing
    rw [add?] at nothing
    split at nothing
    · cases nothing
    · split at nothing
      · cases nothing
      · rw [value_add_eq]
        exact fit?_eq_none_iff.mp nothing
  · intro beyond
    cases found : add? a b with
    | none => rfl
    | some c => exact absurd beyond (add?_rounds found).not_beyond

/-- A sum faults where the exact one is beyond the range. -/
theorem add_error_iff : a.add b = .error cause ↔
    cause = .addition ∧ Beyond (a.value + b.value) := by
  rw [← add?_eq_none_iff, add]
  cases add? a b <;> simp [eq_comm]

theorem sub_error_iff : a.sub b = .error cause ↔
    cause = .subtraction ∧ Beyond (a.value - b.value) := by
  rw [sub_eq_add_neg, ← value_neg, ← add?_eq_none_iff, sub]
  cases add? a (-b) <;> simp [eq_comm]

theorem mul_error_iff : a.mul b = .error cause ↔
    cause = .multiplication ∧ Beyond (a.value * b.value) := by
  have overflows : ∀ {cause}, a.mul b = .error cause →
      cause = .multiplication ∧ Beyond (a.value * b.value) := by
    intro cause failed
    rw [mul] at failed
    split at failed
    · cases failed
    · split at failed
      · cases failed
      case h_2 nothing =>
        refine ⟨(Except.error.inj failed).symm, ?_⟩
        rw [value_mul_eq]
        exact fit?_eq_none_iff.mp nothing
  constructor
  · exact overflows
  · rintro ⟨rfl, beyond⟩
    cases product : a.mul b with
    | ok c => exact absurd beyond (mul_rounds product).not_beyond
    | error other => rw [(overflows product).1]

end

end FuturesDesk.Decimal
