import FuturesDesk.Proofs.Decimal.Division

/-! Quotients under one. Long division has room for all the digits of such a quotient, so that it
neither faults nor comes out above one. -/
namespace FuturesDesk.Decimal

structure Quotient.UnderOne (divisor : Nat) (s : Quotient) : Prop where
  nonneg : 0 ≤ s.scale
  within : s.scale ≤ maxScale
  remainder : s.remainder < divisor
  below : s.digits * divisor + s.remainder < divisor * tenTo s.scale.toNat

structure Quotient.AtMostOne (s : Quotient) : Prop where
  nonneg : 0 ≤ s.scale
  within : s.scale ≤ maxScale
  digits : s.digits ≤ tenTo s.scale.toNat

theorem tenTo_lt_bound {n : Nat} (within : n ≤ maxScale) : tenTo n < coefficientBound :=
  Nat.lt_of_le_of_lt (tenTo_mono within) (by decide)

namespace Quotient
variable {divisor : Nat} {s : Quotient}

theorem UnderOne.digits_lt (under : s.UnderOne divisor) : s.digits < tenTo s.scale.toNat := by
  have below := under.below
  have positive : 0 < divisor := Nat.zero_lt_of_lt under.remainder
  rw [Nat.mul_comm divisor] at below
  exact Nat.lt_of_mul_lt_mul_right (Nat.lt_of_le_of_lt (Nat.le_add_right _ _) below)

theorem UnderOne.atMostOne (under : s.UnderOne divisor) : s.AtMostOne :=
  ⟨under.nonneg, under.within, Nat.le_of_lt under.digits_lt⟩

/-- Nothing but the number of places limits the digits that the quotient can take. -/
theorem UnderOne.roomFor_eq (under : s.UnderOne divisor) :
    roomFor s.digits s.scale = Min.min 9 (maxScale - s.scale.toNat) := by
  have nonneg := under.nonneg
  have within := under.within
  have fits : ∀ k : Nat, HasRoom s.digits s.scale k ↔ k ≤ maxScale - s.scale.toNat := by
    intro k
    constructor
    · rintro ⟨places, _⟩
      omega
    · intro room
      refine ⟨by omega, ?_⟩
      have grown : (s.digits + 1) * tenTo k ≤ tenTo (s.scale.toNat + k) := by
        rw [tenTo_add]
        exact Nat.mul_le_mul_right _ under.digits_lt
      have small := tenTo_lt_bound (n := s.scale.toNat + k) (by omega)
      rw [Nat.add_mul, Nat.one_mul] at grown
      omega
  obtain ⟨nine, member, greatest⟩ := roomFor_spec s.digits s.scale
  apply Nat.le_antisymm
  · rcases member with none_ | room
    · rw [none_]
      exact Nat.zero_le _
    · exact Nat.le_min.mpr ⟨nine, (fits _).mp room⟩
  · exact greatest _ (Nat.min_le_left _ _) ((fits _).mpr (Nat.min_le_right _ _))

theorem UnderOne.extend (under : s.UnderOne divisor) {k : Nat} (room : s.scale + k ≤ maxScale) :
    (s.extend k divisor).UnderOne divisor where
  nonneg := by
    have := under.nonneg
    simp only [Quotient.extend]
    omega
  within := room
  remainder := Nat.mod_lt _ (Nat.zero_lt_of_lt under.remainder)
  below := by
    have nonneg := under.nonneg
    have places : (s.scale + (k : Int)).toNat = s.scale.toNat + k := by omega
    have division := Nat.div_add_mod (s.remainder * tenTo k) divisor
    have grown : (s.digits * divisor + s.remainder) * tenTo k <
        divisor * tenTo s.scale.toNat * tenTo k :=
      Nat.mul_lt_mul_of_pos_right under.below (tenTo_pos k)
    simp only [Quotient.extend, places, tenTo_add]
    calc (s.digits * tenTo k + s.remainder * tenTo k / divisor) * divisor +
          s.remainder * tenTo k % divisor
        = s.digits * tenTo k * divisor +
            (divisor * (s.remainder * tenTo k / divisor) + s.remainder * tenTo k % divisor) := by
          ring
      _ = (s.digits * divisor + s.remainder) * tenTo k := by rw [division]; ring
      _ < divisor * (tenTo s.scale.toNat * tenTo k) := by rw [← Nat.mul_assoc]; exact grown

/-- Rounding the last digit may reach one but not pass it. -/
theorem UnderOne.round (under : s.UnderOne divisor) :
    ∃ t, s.round divisor = some t ∧ t.AtMostOne := by
  have positive : 0 < divisor := Nat.zero_lt_of_lt under.remainder
  have reach : roundHalfEven (s.digits * divisor + s.remainder) divisor ≤ tenTo s.scale.toNat :=
    calc roundHalfEven (s.digits * divisor + s.remainder) divisor
        ≤ roundHalfEven (tenTo s.scale.toNat * divisor) divisor :=
          roundHalfEven_mono _ (by rw [Nat.mul_comm (tenTo _)]; exact Nat.le_of_lt under.below)
      _ = tenTo s.scale.toNat := roundHalfEven_mul positive _
  have fits := tenTo_lt_bound (n := s.scale.toNat) (by have := under.within; omega)
  refine ⟨_, if_pos (Nat.lt_of_le_of_lt reach fits), ?_⟩
  exact ⟨under.nonneg, under.within, reach⟩

/-- Every round but the last takes nine digits, as long as there are so many places left. -/
theorem UnderOne.divideLoop {fuel : Nat} (under : s.UnderOne divisor) (rest : Bool)
    (enough : maxScale - s.scale.toNat ≤ 9 * fuel) :
    ∃ rest' t, divideLoop divisor (fuel + 1) rest s = some (rest', t) ∧ t.AtMostOne := by
  induction fuel generalizing s rest with
  | zero =>
    have nonneg := under.nonneg
    have within := under.within
    have full : s.scale = maxScale := by omega
    rw [Decimal.divideLoop]
    split
    · exact ⟨rest, s, rfl, under.atMostOne⟩
    · obtain ⟨t, rounded, atMostOne⟩ := under.round
      refine ⟨true, t, ?_, atMostOne⟩
      simp [full, rounded]
  | succ fuel ih =>
    have nonneg := under.nonneg
    have within := under.within
    rw [Decimal.divideLoop]
    split
    · exact ⟨rest, s, rfl, under.atMostOne⟩
    · have room : (if s.scale = maxScale then 0 else roomFor s.digits s.scale) =
          Min.min 9 (maxScale - s.scale.toNat) := by
        split
        case isTrue full => simp [full]
        case isFalse => exact under.roomFor_eq
      simp only [room]
      rw [if_neg (by omega)]
      split
      · obtain ⟨t, rounded, atMostOne⟩ := under.round
        exact ⟨true, t, by rw [rounded]; rfl, atMostOne⟩
      · refine ih (under.extend (by omega)) true ?_
        simp only [Quotient.extend]
        omega

theorem AtMostOne.stripZeros {k : Nat} (atMostOne : s.AtMostOne) :
    ((stripZeros k s).getD s).AtMostOne := by
  obtain ⟨nonneg, within, digits⟩ := atMostOne
  rw [Decimal.stripZeros]
  split
  case isTrue shorter =>
    obtain ⟨_, places, _⟩ := shorter
    refine ⟨by simp only [Option.getD_some]; omega, by simp only [Option.getD_some]; omega, ?_⟩
    have split_ : tenTo s.scale.toNat = tenTo (s.scale - k).toNat * tenTo k := by
      rw [← tenTo_add]
      congr 1
      omega
    simp only [Option.getD_some]
    exact Nat.div_le_of_le_mul (by rw [Nat.mul_comm, ← split_]; exact digits)
  case isFalse => exact ⟨nonneg, within, digits⟩

theorem AtMostOne.strip (atMostOne : s.AtMostOne) : (stripQuotient s).AtMostOne :=
  strip_induction (P := AtMostOne) (fun _ _ atMostOne => atMostOne.stripZeros) atMostOne

end Quotient

theorem divideMagnitudes_under_one {n divisor : Nat} {scale : Int} (nonneg : 0 ≤ scale)
    (within : scale ≤ maxScale) (less : n < divisor * tenTo scale.toNat) :
    ∃ s, divideMagnitudes n divisor scale = some s ∧ s.AtMostOne := by
  have positive : 0 < divisor := Nat.pos_of_mul_pos_right (Nat.zero_lt_of_lt less)
  have under : (⟨n / divisor, scale, n % divisor⟩ : Quotient).UnderOne divisor :=
    ⟨nonneg, within, Nat.mod_lt _ positive, by rwa [Nat.div_add_mod']⟩
  have enough : maxScale - scale.toNat ≤ 9 * 15 := Nat.le_trans (Nat.sub_le _ _) (by decide)
  obtain ⟨rest, s, found, atMostOne⟩ := under.divideLoop false enough
  refine ⟨if rest then stripQuotient s else s, by rw [divideMagnitudes, found]; rfl, ?_⟩
  split
  · exact atMostOne.strip
  · exact atMostOne

/-- A number that is not negative over a greater one, with no fewer places than that one, has a
quotient between zero and one. -/
theorem div_under_one {a b : Decimal} (nonneg : 0 ≤ a.value) (less : a.value < b.value)
    (places : b.scale ≤ a.scale) :
    ∃ c, a.div b = .ok c ∧ 0 ≤ c.value ∧ c.value ≤ 1 := by
  have positive : b.value ≠ 0 := (lt_of_le_of_lt nonneg less).ne'
  have left := value_nonneg_iff.mp nonneg
  have right := value_nonneg_iff.mp (le_of_lt (lt_of_le_of_lt nonneg less))
  rw [div, if_neg (mt isZero_iff.mp positive)]
  split
  · exact ⟨.zero, rfl, by simp, by simp⟩
  · have within := a.scale_le
    have below : a.coefficient.natAbs <
        b.coefficient.natAbs * tenTo ((a.scale : Int) - b.scale).toNat := by
      have split_ : tenTo a.scale = tenTo ((a.scale : Int) - b.scale).toNat * tenTo b.scale := by
        rw [← tenTo_add]
        congr 1
        omega
      have scaled := lt_def.mp (lt_iff_value.mpr less)
      rw [split_] at scaled
      have cancelled : a.coefficient <
          b.coefficient * tenTo ((a.scale : Int) - b.scale).toNat := by
        refine lt_of_mul_lt_mul_right ?_ (Int.natCast_nonneg (tenTo b.scale))
        rwa [Int.mul_assoc, ← Int.natCast_mul]
      zify
      rwa [abs_of_nonneg left, abs_of_nonneg right]
    obtain ⟨s, found, atMostOne⟩ := divideMagnitudes_under_one (by omega) (by omega) below
    have nonneg := atMostOne.nonneg
    have within := atMostOne.within
    have inRange : (s.digits : Int).natAbs < coefficientBound ∧ s.scale.toNat ≤ maxScale :=
      ⟨Nat.lt_of_le_of_lt atMostOne.digits (tenTo_lt_bound (by omega)), by omega⟩
    refine ⟨⟨s.digits, s.scale.toNat, inRange.1, inRange.2⟩, ?_, ?_, ?_⟩
    · simp only [found, Int.not_lt.mpr left, Int.not_lt.mpr right, if_true, ofParts?, dif_pos inRange]
    · exact value_nonneg_iff.mpr (Int.natCast_nonneg _)
    · have digits : ((s.digits : Int) : ℚ) ≤ 10 ^ s.scale.toNat := by
        exact_mod_cast atMostOne.digits
      exact (div_le_one (by positivity)).mpr digits

end FuturesDesk.Decimal
