import FuturesDesk.Proofs.Decimal.Cutting
import FuturesDesk.Proofs.Decimal.Value

/-! Rounding numbers to decimals. Sums, differences and products are the exact ones, rounded; the
rounding keeps the order and does not change what is a decimal already. -/
namespace FuturesDesk.Decimal

/-- The number that rounding makes of `n / 10 ^ scale`, in units of the last place. -/
def signedCut (n : Int) (scale : Nat) : Int :=
  if n < 0 then -(cut n.natAbs scale : Int) else cut n.natAbs scale

theorem signedCut_mono {m n : Int} (scale : Nat) (le : m ≤ n) :
    signedCut m scale ≤ signedCut n scale := by
  simp only [signedCut]
  by_cases left : m < 0 <;> by_cases right : n < 0
  · rw [if_pos left, if_pos right]
    have smaller : cut n.natAbs scale ≤ cut m.natAbs scale := cut_mono scale (by omega)
    omega
  · rw [if_pos left, if_neg right]
    omega
  · omega
  · rw [if_neg left, if_neg right]
    have smaller : cut m.natAbs scale ≤ cut n.natAbs scale := cut_mono scale (by omega)
    omega

theorem signedCut_lift (n : Int) (scale : Nat) :
    signedCut (n * 10) (scale + 1) = signedCut n scale * 10 := by
  have size : (n * 10).natAbs = n.natAbs * 10 := Int.natAbs_mul n 10
  simp only [signedCut, size, cut_lift]
  split <;> split <;> push_cast <;> omega

theorem signedCut_neg (n : Int) (scale : Nat) : signedCut (-n) scale = -signedCut n scale := by
  rcases Int.lt_trichotomy n 0 with below | rfl | above
  · rw [signedCut, signedCut, if_neg (by omega), if_pos below, Int.natAbs_neg, Int.neg_neg]
  · have nothing : cut 0 scale = 0 := by
      simp [cut, rounded, roundHalfEven]
    simp [signedCut, nothing]
  · rw [signedCut, signedCut, if_pos (by omega), if_neg (by omega), Int.natAbs_neg]

theorem signed_lt {m : Nat} (n : Int) (bound : m < coefficientBound) :
    (if n < 0 then -(m : Int) else m).natAbs < coefficientBound := by
  split <;> simpa using bound

theorem value_of_fit? {n : Int} {scale : Nat} {d : Decimal} (fits : fit? n scale = some d) :
    d.value = signedCut n scale / (10 : ℚ) ^ scale := by
  obtain ⟨⟨m, places⟩, found, parts⟩ := Option.bind_eq_some_iff.mp fits
  obtain ⟨bound, within, reach, same⟩ := fitMagnitude?_eq_some found
  simp only [ofParts?] at parts
  rw [dif_pos ⟨signed_lt n bound, reach⟩] at parts
  cases parts
  have units : (signedCut n scale : ℚ) =
      ((if n < 0 then -(m : Int) else m : Int) : ℚ) * 10 ^ (scale - places) := by
    have lifted : (cut n.natAbs scale : Int) = m * 10 ^ (scale - places) := by
      rw [← same]
      push_cast
      rfl
    rw [signedCut, lifted]
    split <;> push_cast <;> ring
  rw [value, units, div_eq_div_iff (by positivity) (by positivity), mul_assoc, ← pow_add,
    Nat.sub_add_cancel within]

theorem fit?_isSome {n : Int} {scale : Nat} :
    (fit? n scale).isSome ↔ (fitMagnitude? n.natAbs scale).isSome := by
  rw [fit?]
  cases found : fitMagnitude? n.natAbs scale with
  | none => simp
  | some parts =>
    obtain ⟨bound, _, reach, _⟩ := fitMagnitude?_eq_some found
    simp [ofParts?, signed_lt n bound, reach]

theorem fit?_neg_isSome {n : Int} {scale : Nat} (fits : (fit? n scale).isSome) :
    (fit? (-n) scale).isSome := by
  rw [fit?_isSome] at fits ⊢
  rwa [Int.natAbs_neg]

/-- More places at a power of ten. -/
theorem fit?_lift (n : Int) (scale j : Nat) :
    (signedCut (n * 10 ^ j) (scale + j) : ℚ) / 10 ^ (scale + j) =
        signedCut n scale / 10 ^ scale ∧
      ((fit? (n * 10 ^ j) (scale + j)).isSome ↔ (fit? n scale).isSome) := by
  induction j with
  | zero => simp
  | succ j ih =>
    have shifted : n * 10 ^ (j + 1) = n * 10 ^ j * 10 := by ring
    obtain ⟨value, fits⟩ := ih
    constructor
    · rw [shifted, ← Nat.add_assoc, signedCut_lift, ← value, pow_succ]
      push_cast
      field_simp
    · rw [← fits, shifted, ← Nat.add_assoc, fit?_isSome, fit?_isSome, Int.natAbs_mul]
      exact fits_lift _ _

/-- The decimal is the one to which a number is rounded, as far as its value goes. -/
def Rounds (x : ℚ) (d : Decimal) : Prop :=
  ∃ (n : Int) (scale : Nat) (c : Decimal),
    x = n / (10 : ℚ) ^ scale ∧ fit? n scale = some c ∧ c.value = d.value

theorem fit?_self (d : Decimal) : fit? d.coefficient d.scale = some d := by
  have none_ : droppedDigits d.coefficient.natAbs d.scale = 0 :=
    Nat.le_zero.mp (droppedDigits_le_iff.mpr
      ⟨by simpa using d.coefficient_lt, by simpa using d.scale_le⟩)
  have same : rounded d.coefficient.natAbs d.scale = d.coefficient.natAbs := by
    rw [rounded, none_]
    exact roundHalfEven_one _
  have found : fitMagnitude? d.coefficient.natAbs d.scale =
      some (d.coefficient.natAbs, d.scale) := by
    change (if d.scale < droppedDigits d.coefficient.natAbs d.scale then none
      else if rounded d.coefficient.natAbs d.scale < coefficientBound then
        some (rounded d.coefficient.natAbs d.scale,
          d.scale - droppedDigits d.coefficient.natAbs d.scale)
      else _) = _
    rw [none_, if_neg (Nat.not_lt_zero _), same, if_pos d.coefficient_lt, Nat.sub_zero]
  have signed : (if d.coefficient < 0 then -(d.coefficient.natAbs : Int)
      else d.coefficient.natAbs) = d.coefficient := by
    split <;> omega
  simp only [fit?, found, Option.bind_some, signed, ofParts?]
  rw [dif_pos ⟨d.coefficient_lt, d.scale_le⟩]

namespace Rounds
variable {x y : ℚ} {a b d : Decimal}

theorem ofDecimal (d : Decimal) : Rounds d.value d :=
  ⟨d.coefficient, d.scale, d, rfl, fit?_self d, rfl⟩

theorem congr (r : Rounds x a) (same : a.value = b.value) : Rounds x b := by
  obtain ⟨n, s, c, exact_, found, value⟩ := r
  exact ⟨n, s, c, exact_, found, value.trans same⟩

theorem zero : Rounds 0 .zero := by
  simpa using ofDecimal .zero

theorem mono (left : Rounds x a) (right : Rounds y b) (le : x ≤ y) : a.value ≤ b.value := by
  obtain ⟨m, s, c, rfl, found, same⟩ := left
  obtain ⟨n, t, e, rfl, found', same'⟩ := right
  have aligned : m * 10 ^ t ≤ n * 10 ^ s := by
    simpa [Nat.pow_eq] using ratio_le_iff.mp le
  rw [← same, ← same', value_of_fit? found, value_of_fit? found', ← (fit?_lift m s t).1,
    ← (fit?_lift n t s).1, Nat.add_comm t s]
  refine div_le_div_of_nonneg_right ?_ (by positivity)
  exact_mod_cast signedCut_mono (s + t) aligned

theorem unique (left : Rounds x a) (right : Rounds x b) : a.value = b.value :=
  le_antisymm (left.mono right (le_refl x)) (right.mono left (le_refl x))

theorem neg (r : Rounds x d) : Rounds (-x) (-d) := by
  obtain ⟨n, s, c, rfl, found, same⟩ := r
  obtain ⟨e, fits⟩ := Option.isSome_iff_exists.mp
    (fit?_neg_isSome (Option.isSome_iff_exists.mpr ⟨c, found⟩))
  refine ⟨-n, s, e, by push_cast; ring, fits, ?_⟩
  rw [value_of_fit? fits, value_neg, ← same, value_of_fit? found, signedCut_neg]
  push_cast
  ring

/-- Rounding does not pass a decimal. -/
theorem le_of_le (r : Rounds x d) (le : a.value ≤ x) : a.value ≤ d.value :=
  (ofDecimal a).mono r le

theorem ge_of_ge (r : Rounds x d) (ge : x ≤ a.value) : d.value ≤ a.value :=
  r.mono (ofDecimal a) ge

theorem nonneg (r : Rounds x d) (nonneg : 0 ≤ x) : 0 ≤ d.value := by
  simpa using zero.mono r nonneg

/-- What is no larger in size than a number that can be rounded can be rounded too. -/
theorem fits (r : Rounds y d) {n : Int} {scale : Nat} (le : |(n : ℚ) / 10 ^ scale| ≤ |y|) :
    (fit? n scale).isSome := by
  obtain ⟨m, t, c, rfl, found, _⟩ := r
  have aligned : (n * 10 ^ t).natAbs ≤ (m * 10 ^ scale).natAbs := by
    have size : ∀ (k : Int) (u : Nat), |(k : ℚ) / 10 ^ u| = (k.natAbs : Int) / (10 : ℚ) ^ u := by
      intro k u
      rw [abs_div, abs_of_pos (show (0 : ℚ) < 10 ^ u by positivity)]
      simp
    rw [size, size, ratio_le_iff] at le
    rw [Int.natAbs_mul, Int.natAbs_mul, Int.natAbs_pow, Int.natAbs_pow]
    exact_mod_cast le
  rw [← (fit?_lift n scale t).2, fit?_isSome, Nat.add_comm scale t]
  refine fits_mono aligned ?_
  rw [← fit?_isSome, (fit?_lift m t scale).2, found]
  rfl

end Rounds

theorem value_add_eq (a b : Decimal) :
    a.value + b.value = alignedSum a b / (10 : ℚ) ^ Nat.max a.scale b.scale := by
  have left : a.scale ≤ Nat.max a.scale b.scale := Nat.le_max_left _ _
  have right : b.scale ≤ Nat.max a.scale b.scale := Nat.le_max_right _ _
  have lifted : ∀ (d : Decimal) {places : Nat}, d.scale ≤ places →
      d.value = (d.coefficient * 10 ^ (places - d.scale) : ℚ) / 10 ^ places := by
    intro d places within
    rw [value, div_eq_div_iff (by positivity) (by positivity), mul_assoc, ← pow_add,
      Nat.sub_add_cancel within]
  rw [lifted a left, lifted b right, ← add_div]
  simp [alignedSum, Nat.pow_eq]

theorem add?_rounds {a b c : Decimal} (sum : add? a b = some c) : Rounds (a.value + b.value) c := by
  rw [add?] at sum
  split at sum
  case isTrue nothing =>
    cases sum
    rw [isZero_iff.mp nothing, zero_add]
    exact .ofDecimal b
  · split at sum
    case isTrue nothing =>
      cases sum
      rw [isZero_iff.mp nothing, add_zero]
      exact .ofDecimal a
    case isFalse =>
      exact ⟨_, _, c, value_add_eq a b, sum, rfl⟩

theorem add?_isSome {a b d : Decimal} {y : ℚ} (r : Rounds y d) (le : |a.value + b.value| ≤ |y|) :
    ∃ c, add? a b = some c := by
  rw [add?]
  split
  · exact ⟨b, rfl⟩
  · split
    · exact ⟨a, rfl⟩
    · rw [value_add_eq] at le
      exact Option.isSome_iff_exists.mp (r.fits le)

/-- A sum is the exact one, rounded. -/
theorem add_rounds {a b c : Decimal} (sum : a.add b = .ok c) : Rounds (a.value + b.value) c := by
  cases found : add? a b with
  | none => simp [add, found] at sum
  | some e =>
    obtain rfl : e = c := by simpa [add, found] using sum
    exact add?_rounds found

/-- No sum is rounded to zero that is not zero. -/
theorem add_eq_zero_iff {a b c : Decimal} (sum : a.add b = .ok c) :
    c.value = 0 ↔ a.value + b.value = 0 := by
  have rounds := add_rounds sum
  constructor
  · intro nothing
    -- The smallest decimal above zero lies between zero and the size of any other sum.
    let tick : Decimal := ⟨1, maxScale, by decide, by decide⟩
    have tick_le : ∀ {n : Int}, 0 < n → tick.value ≤ n / (10 : ℚ) ^ Nat.max a.scale b.scale := by
      intro n positive
      have places : Nat.max a.scale b.scale ≤ maxScale := Nat.max_le.mpr ⟨a.scale_le, b.scale_le⟩
      have power : tenTo (Nat.max a.scale b.scale) ≤ tenTo maxScale :=
        Nat.pow_le_pow_right (by decide) places
      refine ratio_le_iff.mpr ?_
      exact mul_le_mul (Int.add_one_le_of_lt positive) (by exact_mod_cast power) (by positivity)
        positive.le
    have tick_pos : 0 < tick.value := by simp [value, tick]
    rw [value_add_eq] at rounds ⊢
    rcases lt_trichotomy (alignedSum a b) 0 with below | same | above
    · have far := tick_le (Int.neg_pos.mpr below)
      have under := rounds.ge_of_ge (a := -tick) (by
        rw [value_neg]
        push_cast at far
        linarith [neg_div ((10 : ℚ) ^ Nat.max a.scale b.scale) (alignedSum a b : ℚ)])
      rw [value_neg] at under
      linarith
    · simp [same]
    · have beyond := rounds.le_of_le (tick_le above)
      linarith
  · intro nothing
    rw [nothing] at rounds
    simpa using rounds.unique .zero

/-- A sum no larger in size than a number in range does not fault. -/
theorem add_ok {a b d : Decimal} {y : ℚ} (r : Rounds y d) (le : |a.value + b.value| ≤ |y|) :
    ∃ c, a.add b = .ok c := by
  obtain ⟨c, found⟩ := add?_isSome r le
  exact ⟨c, by simp [add, found]⟩

/-- A difference is the exact one, rounded. -/
theorem sub_rounds {a b c : Decimal} (difference : a.sub b = .ok c) :
    Rounds (a.value - b.value) c := by
  rw [sub_eq_add_neg, ← value_neg]
  cases found : add? a (-b) with
  | none => simp [sub, found] at difference
  | some e =>
    obtain rfl : e = c := by simpa [sub, found] using difference
    exact add?_rounds found

theorem sub_ok {a b d : Decimal} {y : ℚ} (r : Rounds y d) (le : |a.value - b.value| ≤ |y|) :
    ∃ c, a.sub b = .ok c := by
  rw [sub_eq_add_neg, ← value_neg] at le
  obtain ⟨c, found⟩ := add?_isSome r le
  exact ⟨c, by simp [sub, found]⟩

theorem value_mul_eq (a b : Decimal) :
    a.value * b.value = (a.coefficient * b.coefficient : Int) / (10 : ℚ) ^ (a.scale + b.scale) := by
  rw [value, value, div_mul_div_comm, pow_add]
  push_cast
  rfl

theorem roundHalfEven_small {n d : Nat} (small : 2 * n < d) : roundHalfEven n d = 0 := by
  have below : n < d := by omega
  simp [roundHalfEven, Nat.div_eq_of_lt below, Nat.mod_eq_of_lt below]
  omega

/-- A product beyond reach would be rounded to zero. -/
theorem rounds_of_vanishes {a b : Decimal} (beyond : vanishes a b = true) :
    Rounds (a.value * b.value) .zero := by
  obtain ⟨left, right, places⟩ : a.coefficient.natAbs < twoTo 32 ∧ b.coefficient.natAbs < twoTo 32 ∧
      maxScale + 19 < a.scale + b.scale := by simpa [vanishes] using beyond
  let n := a.coefficient * b.coefficient
  let scale := a.scale + b.scale
  have size : n.natAbs < 2 ^ 64 := by
    rw [Int.natAbs_mul]
    exact Nat.lt_of_lt_of_le (Nat.mul_lt_mul'' left right) (by decide)
  have power : 10 ^ 20 ≤ tenTo (scale - maxScale) :=
    Nat.pow_le_pow_right (by decide) (by simp only [scale]; omega)
  have kept : droppedDigits n.natAbs scale = scale - maxScale := by
    have none_ : excessDigits n.natAbs = 0 :=
      Nat.le_zero.mp (excessDigits_le_iff.mpr (Nat.lt_of_lt_of_le size (by decide)))
    rw [droppedDigits, none_]
    exact Nat.max_eq_right (Nat.zero_le _)
  have nothing : rounded n.natAbs scale = 0 := by
    rw [rounded, kept]
    exact roundHalfEven_small (by omega)
  have fits : (fit? n scale).isSome := by
    rw [fit?_isSome, fitMagnitude?_isSome, kept, nothing]
    exact ⟨Nat.sub_le _ _, .inl (by decide)⟩
  obtain ⟨c, found⟩ := Option.isSome_iff_exists.mp fits
  refine ⟨n, scale, c, value_mul_eq a b, found, ?_⟩
  rw [value_of_fit? found, signedCut, cut, nothing]
  simp

/-- A product is the exact one, rounded. -/
theorem mul_rounds {a b c : Decimal} (product : a.mul b = .ok c) :
    Rounds (a.value * b.value) c := by
  rw [mul] at product
  split at product
  case isTrue plain =>
    cases product
    rcases plain with left | right | beyond
    · rw [isZero_iff.mp left, zero_mul]
      exact .zero
    · rw [isZero_iff.mp right, mul_zero]
      exact .zero
    · exact rounds_of_vanishes beyond
  case isFalse =>
    cases found : fit? (a.coefficient * b.coefficient) (a.scale + b.scale) with
    | none => simp [found] at product
    | some e =>
      obtain rfl : e = c := by simpa [found] using product
      exact ⟨_, _, e, value_mul_eq a b, found, rfl⟩

/-- A product no larger in size than a number in range does not fault. -/
theorem mul_ok {a b d : Decimal} {y : ℚ} (r : Rounds y d) (le : |a.value * b.value| ≤ |y|) :
    ∃ c, a.mul b = .ok c := by
  rw [mul]
  split
  · exact ⟨.zero, rfl⟩
  · rw [value_mul_eq] at le
    obtain ⟨c, found⟩ := Option.isSome_iff_exists.mp (r.fits le)
    exact ⟨c, by rw [found]⟩

/-- A quotient of numbers that are not negative is not negative. -/
theorem div_nonneg_of_nonneg {a b c : Decimal} (quotient : a.div b = .ok c) (left : 0 ≤ a.value)
    (right : 0 ≤ b.value) : 0 ≤ c.value := by
  rw [value_nonneg_iff] at left right ⊢
  rw [div] at quotient
  split at quotient
  · cases quotient
  · split at quotient
    · cases quotient
      exact Int.le_refl 0
    · split at quotient
      · cases quotient
      case h_2 s _ =>
        have sign : (a.coefficient < 0) = (b.coefficient < 0) := by
          simp [Int.not_lt.mpr left, Int.not_lt.mpr right]
        rw [if_pos sign, ofParts?] at quotient
        split at quotient
        case h_1 found =>
          cases quotient
          split at found
          · cases found
            exact Int.natCast_nonneg _
          · cases found
        case h_2 => cases quotient

end FuturesDesk.Decimal
