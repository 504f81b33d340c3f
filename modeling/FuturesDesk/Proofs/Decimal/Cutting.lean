import FuturesDesk.Decimal.Arithmetic
import Mathlib.Tactic.Ring
import Mathlib.Tactic.Linarith

/-! Cutting a magnitude to the range of decimals. The cut keeps the order of magnitudes, does not
depend on zeros at the end of the places, and leaves alone what fits. -/
namespace FuturesDesk.Decimal

theorem tenTo_pos (n : Nat) : 0 < tenTo n := Nat.pow_pos (by decide)

theorem tenTo_succ (n : Nat) : tenTo (n + 1) = tenTo n * 10 := Nat.pow_succ 10 n

theorem tenTo_mono {m n : Nat} (le : m ≤ n) : tenTo m ≤ tenTo n :=
  Nat.pow_le_pow_right (by decide) le

theorem tenTo_add (m n : Nat) : tenTo (m + n) = tenTo m * tenTo n := Nat.pow_add 10 m n

section roundHalfEven
variable {m n d : Nat}

theorem roundHalfEven_mono (d : Nat) (le : m ≤ n) : roundHalfEven m d ≤ roundHalfEven n d := by
  rcases Nat.eq_zero_or_pos d with rfl | positive
  · simp [roundHalfEven]
    split <;> split <;> omega
  · have quotients : m / d ≤ n / d := Nat.div_le_div_right le
    have left := Nat.div_add_mod m d
    have right := Nat.div_add_mod n d
    simp only [roundHalfEven]
    rcases Nat.lt_or_eq_of_le quotients with lower | same
    · split <;> split <;> omega
    · rw [same] at left ⊢
      have remainders : m % d ≤ n % d := by omega
      split <;> split <;> omega

theorem roundHalfEven_mul (positive : 0 < d) (m : Nat) : roundHalfEven (m * d) d = m := by
  simp [roundHalfEven, Nat.mul_div_cancel _ positive]
  omega

theorem roundHalfEven_scale {c : Nat} (positive : 0 < c) (n d : Nat) :
    roundHalfEven (n * c) (d * c) = roundHalfEven n d := by
  have quotient : n * c / (d * c) = n / d := Nat.mul_div_mul_right n d positive
  have remainder : n * c % (d * c) = n % d * c := Nat.mul_mod_mul_right c n d
  have twice : 2 * (n % d * c) = 2 * (n % d) * c := (Nat.mul_assoc 2 _ _).symm
  simp only [roundHalfEven, quotient, remainder, twice, Nat.mul_lt_mul_right positive,
    Nat.mul_left_inj (Nat.ne_of_gt positive)]

theorem roundHalfEven_one (n : Nat) : roundHalfEven n 1 = n := by
  simpa using roundHalfEven_mul Nat.one_pos n

end roundHalfEven

/-- The digits are dropped that exceed the bound. -/
theorem excessDigits_le_iff {n k : Nat} :
    excessDigits n ≤ k ↔ n < coefficientBound * tenTo k := by
  induction k generalizing n with
  | zero =>
    rw [excessDigits]
    split <;> simp <;> omega
  | succ k ih =>
    rw [excessDigits]
    split
    case isTrue fits =>
      have grows : coefficientBound ≤ coefficientBound * tenTo (k + 1) :=
        Nat.le_mul_of_pos_right _ (tenTo_pos _)
      simp only [Nat.zero_le, true_iff]
      omega
    case isFalse =>
      rw [Nat.succ_le_succ_iff, ih, Nat.div_lt_iff_lt_mul (by decide), tenTo_succ, Nat.mul_assoc]

/-- The number of digits that the range takes from `n / 10 ^ scale`. -/
def droppedDigits (n scale : Nat) : Nat := Nat.max (excessDigits n) (scale - maxScale)

theorem droppedDigits_le_iff {n scale k : Nat} :
    droppedDigits n scale ≤ k ↔ n < coefficientBound * tenTo k ∧ scale ≤ maxScale + k := by
  rw [droppedDigits, Nat.max_le, excessDigits_le_iff, Nat.sub_le_iff_le_add']

theorem droppedDigits_mono {m n : Nat} (scale : Nat) (le : m ≤ n) :
    droppedDigits m scale ≤ droppedDigits n scale := by
  have fits := droppedDigits_le_iff.mp (Nat.le_refl (droppedDigits n scale))
  exact droppedDigits_le_iff.mpr ⟨Nat.lt_of_le_of_lt le fits.1, fits.2⟩

/-- A further place costs a digit, if any is dropped. -/
theorem droppedDigits_lift (n scale : Nat) (some_ : 0 < droppedDigits (n * 10) (scale + 1)) :
    droppedDigits (n * 10) (scale + 1) = droppedDigits n scale + 1 := by
  have same : ∀ k, droppedDigits (n * 10) (scale + 1) ≤ k + 1 ↔ droppedDigits n scale ≤ k := by
    intro k
    rw [droppedDigits_le_iff, droppedDigits_le_iff, tenTo_succ, ← Nat.mul_assoc]
    omega
  obtain ⟨k, found⟩ := Nat.exists_eq_succ_of_ne_zero (Nat.ne_of_gt some_)
  have le := (same k).mp (Nat.le_of_eq found)
  have ge := (same (droppedDigits n scale)).mpr (Nat.le_refl _)
  omega

theorem le_of_not_fits {n scale k : Nat} (dropped : k < droppedDigits n scale)
    (places : scale ≤ maxScale + k) : coefficientBound * tenTo k ≤ n := by
  by_contra below
  exact Nat.not_le.mpr dropped (droppedDigits_le_iff.mpr ⟨Nat.not_le.mp below, places⟩)

/-- A magnitude without its dropped digits, before a carry out of the range is taken up. -/
def rounded (n scale : Nat) : Nat := roundHalfEven n (tenTo (droppedDigits n scale))

theorem rounded_le (n scale : Nat) : rounded n scale ≤ coefficientBound := by
  have below := (droppedDigits_le_iff.mp (Nat.le_refl (droppedDigits n scale))).1
  calc rounded n scale
      ≤ roundHalfEven (coefficientBound * tenTo (droppedDigits n scale)) _ :=
        roundHalfEven_mono _ (Nat.le_of_lt below)
    _ = coefficientBound := roundHalfEven_mul (tenTo_pos _) _

abbrev carried : Nat := roundHalfEven coefficientBound 10

theorem carried_eq : carried * 10 = coefficientBound + 4 := by decide

/-- What the range leaves of a magnitude, in the units of its last place. -/
def cut (n scale : Nat) : Nat :=
  if rounded n scale < coefficientBound then rounded n scale * tenTo (droppedDigits n scale)
  else carried * tenTo (droppedDigits n scale + 1)

theorem cut_le (n scale : Nat) : cut n scale ≤ carried * tenTo (droppedDigits n scale + 1) := by
  rw [cut]
  split
  case isTrue inside =>
    have scaled := Nat.mul_le_mul_right (tenTo (droppedDigits n scale))
      (show rounded n scale ≤ carried * 10 by rw [carried_eq]; omega)
    rw [tenTo_succ]
    linarith
  case isFalse => exact Nat.le_refl _

theorem le_cut {n scale k : Nat} (dropped : droppedDigits n scale = k + 1)
    (places : scale ≤ maxScale + k) : carried * tenTo (k + 1) ≤ cut n scale := by
  have least : carried ≤ rounded n scale := by
    have high := le_of_not_fits (show k < droppedDigits n scale by omega) places
    calc carried = roundHalfEven (coefficientBound * tenTo k) (10 * tenTo k) :=
          (roundHalfEven_scale (tenTo_pos k) _ _).symm
      _ = roundHalfEven (coefficientBound * tenTo k) (tenTo (k + 1)) := by
          rw [tenTo_succ, Nat.mul_comm 10]
      _ ≤ rounded n scale := by
          rw [rounded, dropped]
          exact roundHalfEven_mono _ high
  rw [cut, dropped]
  split
  · exact Nat.mul_le_mul_right _ least
  · rw [tenTo_succ (k + 1)]
    exact Nat.mul_le_mul_left _ (Nat.le_mul_of_pos_right _ (by decide))

theorem cut_mono {m n : Nat} (scale : Nat) (le : m ≤ n) : cut m scale ≤ cut n scale := by
  rcases Nat.lt_or_eq_of_le (droppedDigits_mono scale le) with fewer | same
  · obtain ⟨k, found⟩ := Nat.exists_eq_succ_of_ne_zero (Nat.ne_of_gt (Nat.zero_lt_of_lt fewer))
    have within : droppedDigits m scale ≤ k := by omega
    have places := (droppedDigits_le_iff.mp within).2
    have powers : tenTo (droppedDigits m scale + 1) ≤ tenTo (k + 1) :=
      Nat.pow_le_pow_right (by decide) (by omega)
    calc cut m scale ≤ carried * tenTo (droppedDigits m scale + 1) := cut_le m scale
      _ ≤ carried * tenTo (k + 1) := Nat.mul_le_mul_left _ powers
      _ ≤ cut n scale := le_cut found places
  · by_cases inside : rounded n scale < coefficientBound
    · have mono : rounded m scale ≤ rounded n scale := by
        rw [rounded, rounded, same]
        exact roundHalfEven_mono _ le
      rw [cut, cut, if_pos inside, if_pos (by omega), same]
      exact Nat.mul_le_mul_right _ mono
    · rw [cut.eq_1 n, if_neg inside, ← same]
      exact cut_le m scale

theorem rounded_lift (n scale : Nat) (some_ : 0 < droppedDigits (n * 10) (scale + 1)) :
    rounded (n * 10) (scale + 1) = rounded n scale := by
  rw [rounded, droppedDigits_lift n scale some_, tenTo_succ, roundHalfEven_scale (by decide), rounded]

/-- A zero at the end of the places makes no difference. -/
theorem cut_lift (n scale : Nat) : cut (n * 10) (scale + 1) = cut n scale * 10 := by
  rcases Nat.eq_zero_or_pos (droppedDigits (n * 10) (scale + 1)) with none_ | some_
  · have fits := droppedDigits_le_iff.mp (Nat.le_of_eq none_)
    have below : droppedDigits n scale = 0 := by
      refine Nat.le_zero.mp (droppedDigits_le_iff.mpr ⟨?_, ?_⟩) <;> simp at fits ⊢ <;> omega
    simp only [Nat.mul_one, Nat.pow_eq, Nat.pow_zero] at fits
    simp only [cut, rounded, none_, below, Nat.pow_eq, Nat.pow_zero, roundHalfEven_one]
    rw [if_pos (by omega), if_pos (by omega)]
    omega
  · rw [cut, cut, rounded_lift n scale some_, droppedDigits_lift n scale some_]
    split
    · rw [tenTo_succ, Nat.mul_assoc]
    · rw [tenTo_succ (_ + 1), Nat.mul_assoc]

/-- A cut is possible if the whole part fits, also after a carry. -/
theorem fitMagnitude?_isSome {n scale : Nat} :
    (fitMagnitude? n scale).isSome ↔ droppedDigits n scale ≤ scale ∧
      (rounded n scale < coefficientBound ∨ droppedDigits n scale < scale) := by
  change (if scale < droppedDigits n scale then none
    else if rounded n scale < coefficientBound then _
    else if scale = droppedDigits n scale then none else _ : Option (Nat × Nat)).isSome ↔ _
  split
  · simp
    omega
  · split
    · simp_all
    · split <;> simp <;> omega

theorem fitMagnitude?_eq_some {n scale m places : Nat}
    (fits : fitMagnitude? n scale = some (m, places)) :
    m < coefficientBound ∧ places ≤ scale ∧ places ≤ maxScale ∧
      m * tenTo (scale - places) = cut n scale := by
  have reach := (droppedDigits_le_iff.mp (Nat.le_refl (droppedDigits n scale))).2
  change (if scale < droppedDigits n scale then none
    else if rounded n scale < coefficientBound then
      some (rounded n scale, scale - droppedDigits n scale)
    else if scale = droppedDigits n scale then none
    else some (roundHalfEven (rounded n scale) 10, scale - droppedDigits n scale - 1)) =
      some (m, places) at fits
  split at fits
  · cases fits
  · split at fits
    case isTrue inside =>
      cases fits
      refine ⟨inside, Nat.sub_le _ _, by omega, ?_⟩
      rw [cut, if_pos inside, Nat.sub_sub_self (by omega)]
    case isFalse outside =>
      split at fits
      · cases fits
      · cases fits
        have carry : rounded n scale = coefficientBound :=
          Nat.le_antisymm (rounded_le n scale) (Nat.not_lt.mp outside)
        rw [cut, if_neg outside, carry]
        refine ⟨by decide, by omega, by omega, ?_⟩
        congr 2
        omega

theorem fits_mono {m n scale : Nat} (le : m ≤ n) (fits : (fitMagnitude? n scale).isSome) :
    (fitMagnitude? m scale).isSome := by
  rw [fitMagnitude?_isSome] at fits ⊢
  obtain ⟨within, room⟩ := fits
  have fewer := droppedDigits_mono scale le
  refine ⟨by omega, ?_⟩
  rcases Nat.lt_or_eq_of_le (Nat.le_trans fewer within) with less | full
  · exact .inr less
  · have same : droppedDigits n scale = droppedDigits m scale := by omega
    have mono : rounded m scale ≤ rounded n scale := by
      rw [rounded, rounded, same]
      exact roundHalfEven_mono _ le
    exact .inl (by omega)

theorem fits_lift (n scale : Nat) :
    (fitMagnitude? (n * 10) (scale + 1)).isSome ↔ (fitMagnitude? n scale).isSome := by
  rw [fitMagnitude?_isSome, fitMagnitude?_isSome]
  rcases Nat.eq_zero_or_pos (droppedDigits (n * 10) (scale + 1)) with none_ | some_
  · have fits := droppedDigits_le_iff.mp (Nat.le_of_eq none_)
    simp only [Nat.mul_one, Nat.pow_eq, Nat.pow_zero] at fits
    have below : droppedDigits n scale = 0 := by
      refine Nat.le_zero.mp (droppedDigits_le_iff.mpr ⟨?_, ?_⟩) <;> simp <;> omega
    simp only [rounded, none_, below, Nat.pow_eq, Nat.pow_zero, roundHalfEven_one]
    omega
  · rw [rounded_lift n scale some_, droppedDigits_lift n scale some_]
    omega

end FuturesDesk.Decimal
