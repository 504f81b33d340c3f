import FuturesDesk.Proofs.Decimal.Range

/-! Where a division ends. Long division takes the digits of a quotient until the places or the range
are full, always within its rounds, so that it faults by nothing but a quotient at the end of the
range. -/
namespace FuturesDesk.Decimal

/-- The last of the first numbers with a property is the greatest of them. -/
theorem last_filter_range (p : Nat → Bool) (n : Nat) :
    (∀ j < n, p j = true → j ≤ ((List.range n).filter p).getLastD 0) ∧
      (((List.range n).filter p).getLastD 0 = 0 ∨
        ((List.range n).filter p).getLastD 0 < n ∧
          p (((List.range n).filter p).getLastD 0) = true) := by
  induction n with
  | zero => simp
  | succ n ih =>
    obtain ⟨greatest, member⟩ := ih
    rw [List.range_succ, List.filter_append]
    cases last : p n with
    | true =>
      rw [List.filter_cons_of_pos last, List.filter_nil, List.getLastD_concat]
      refine ⟨?_, .inr ⟨Nat.lt_succ_self n, last⟩⟩
      intro j small _
      exact Nat.le_of_lt_succ small
    | false =>
      rw [List.filter_cons_of_neg (by simp [last]), List.filter_nil, List.append_nil]
      refine ⟨?_, member.imp_right fun found => ⟨Nat.lt_succ_of_lt found.1, found.2⟩⟩
      intro j small holds
      apply greatest j _ holds
      rcases Nat.lt_or_eq_of_le (Nat.le_of_lt_succ small) with below | rfl
      · exact below
      · cases last.symm.trans holds

/-- A quotient has places and range for `k` further digits, whatever they are. -/
def HasRoom (q : Nat) (scale : Int) (k : Nat) : Prop :=
  scale + k ≤ maxScale ∧ q * tenTo k + tenTo k - 1 < coefficientBound

theorem roomFor_spec (q : Nat) (scale : Int) :
    roomFor q scale ≤ 9 ∧ (roomFor q scale = 0 ∨ HasRoom q scale (roomFor q scale)) ∧
      ∀ k ≤ 9, HasRoom q scale k → k ≤ roomFor q scale := by
  obtain ⟨greatest, member⟩ := last_filter_range (fun k : Nat =>
    scale + k ≤ maxScale ∧ q * tenTo k + tenTo k - 1 < coefficientBound) 10
  simp only [decide_eq_true_eq] at greatest member
  rw [roomFor]
  refine ⟨?_, member.imp_right And.right, ?_⟩
  · rcases member with none_ | ⟨small, _⟩
    · omega
    · omega
  · intro k small room
    exact greatest k (Nat.lt_succ_of_le small) room

namespace Quotient
variable {divisor : Nat} {s : Quotient}

def value (divisor : Nat) (s : Quotient) : ℚ :=
  (s.digits + s.remainder / divisor) / (10 : ℚ) ^ s.scale

theorem value_extend (positive : 0 < divisor) (s : Quotient) (k : Nat) :
    (s.extend k divisor).value divisor = s.value divisor := by
  have division := Nat.div_add_mod (s.remainder * tenTo k) divisor
  have nonzero : (divisor : ℚ) ≠ 0 := Nat.cast_ne_zero.mpr positive.ne'
  have units : (divisor * (s.remainder * tenTo k / divisor : Nat) +
      (s.remainder * tenTo k % divisor : Nat) : ℚ) = s.remainder * 10 ^ k := by
    exact_mod_cast division
  have digits : ((s.extend k divisor).digits + (s.extend k divisor).remainder / divisor : ℚ) =
      (s.digits + s.remainder / divisor) * 10 ^ k := by
    simp only [Quotient.extend, Nat.cast_add, Nat.cast_mul, Nat.pow_eq, Nat.cast_pow,
      Nat.cast_ofNat] at units ⊢
    rw [add_mul, div_mul_eq_mul_div, ← units, add_div, mul_div_cancel_left₀ _ nonzero, add_assoc]
  rw [value, value, digits]
  simp only [Quotient.extend]
  rw [zpow_add₀ (by norm_num), zpow_natCast]
  field_simp

/-- A quotient under way, with its digits in range and the rest smaller than the divisor. -/
structure Ready (divisor : Nat) (s : Quotient) : Prop where
  remainder : s.remainder < divisor
  digits : s.digits < coefficientBound
  within : s.scale ≤ maxScale

structure Fits (s : Quotient) : Prop where
  nonneg : 0 ≤ s.scale
  within : s.scale ≤ maxScale
  digits : s.digits < coefficientBound

/-- How the division of a quotient ends: with a decimal, or because the quotient is at the end of the
range. -/
inductive Ends (x : ℚ) : Option (Bool × Quotient) → Prop where
  | fits {rest t} (fits : Fits t) : Ends x (some (rest, t))
  | overflows (large : (coefficientBound : ℚ) - 10 ^ 9 < x) : Ends x none

/-- No more than `room` further digits can be taken. -/
def Tight (room : Nat) (s : Quotient) : Prop :=
  coefficientBound ≤ s.digits * tenTo (room + 1) ∨ maxScale ≤ s.scale + room ∨
    s.remainder = 0 ∧ 0 ≤ s.scale + room

/-- Digits that are still to be multiplied up are a lower bound. -/
theorem digits_le_value (divisor : Nat) (s : Quotient) {k : Nat} (places : s.scale + k ≤ 0) :
    (s.digits * 10 ^ k : ℚ) ≤ s.value divisor := by
  have power : (0 : ℚ) < 10 ^ s.scale := zpow_pos (by norm_num) _
  have shift : (10 : ℚ) ^ (k : Int) * 10 ^ s.scale ≤ 1 := by
    rw [← zpow_add₀ (by norm_num)]
    exact zpow_le_one_of_nonpos₀ (by norm_num) (by omega)
  have rest : (0 : ℚ) ≤ s.remainder / divisor := by positivity
  rw [value, le_div_iff₀ power, mul_assoc, ← zpow_natCast]
  calc (s.digits * (10 ^ (k : Int) * 10 ^ s.scale) : ℚ) ≤ s.digits * 1 :=
        mul_le_mul_of_nonneg_left shift (Nat.cast_nonneg _)
    _ ≤ s.digits + s.remainder / divisor := by linarith

theorem Tight.extend {room k : Nat} (tight : s.Tight room) (le : k ≤ room) :
    (s.extend k divisor).Tight (room - k) := by
  rcases tight with range | places | settled
  · left
    have power : tenTo (room + 1) = tenTo k * tenTo (room - k + 1) := by
      rw [← tenTo_add]
      congr 1
      omega
    calc coefficientBound ≤ s.digits * tenTo (room + 1) := range
      _ = s.digits * tenTo k * tenTo (room - k + 1) := by rw [power, Nat.mul_assoc]
      _ ≤ _ := Nat.mul_le_mul_right _ (Nat.le_add_right _ _)
  · right; left
    simp only [Quotient.extend]
    omega
  · right; right
    simp only [Quotient.extend, settled.1, Nat.zero_mul, Nat.zero_mod, true_and]
    omega

/-- Rounding the last digit stays in range, or the quotient is half a unit from its end. -/
theorem Ready.round (ready : s.Ready divisor) (nonneg : 0 ≤ s.scale) :
    Ends (s.value divisor) ((s.round divisor).map (true, ·)) := by
  have positive : 0 < divisor := Nat.zero_lt_of_lt ready.remainder
  rw [Quotient.round]
  split
  case isTrue small => exact .fits ⟨nonneg, ready.within, small⟩
  case isFalse carry =>
    have reach : roundHalfEven (s.digits * divisor + s.remainder) divisor = coefficientBound := by
      apply Nat.le_antisymm _ (Nat.not_lt.mp carry)
      calc roundHalfEven (s.digits * divisor + s.remainder) divisor
          ≤ roundHalfEven ((s.digits + 1) * divisor) divisor := by
            apply roundHalfEven_mono
            rw [Nat.add_mul, Nat.one_mul]
            exact Nat.add_le_add_left (Nat.le_of_lt ready.remainder) _
        _ = s.digits + 1 := roundHalfEven_mul positive _
        _ ≤ coefficientBound := ready.digits
    split
    case isTrue places =>
      refine .fits ⟨?_, ?_, ?_⟩
      · exact Int.sub_nonneg_of_le places
      · have := ready.within
        simp only
        omega
      · rw [reach]
        exact show carried < coefficientBound by decide
    case isFalse whole =>
      refine .overflows ?_
      have flat : s.scale = 0 := by omega
      have near := Nat.not_lt.mp (mt (roundHalfEven_lt_iff positive (by decide)).mpr carry)
      have units : (2 * (coefficientBound * divisor) : ℚ) ≤
          2 * (s.digits * divisor + s.remainder) + divisor := by exact_mod_cast near
      have size : (0 : ℚ) < divisor := Nat.cast_pos.mpr positive
      rw [value, flat, zpow_zero, div_one]
      have total : (s.digits + s.remainder / divisor : ℚ) =
          (s.digits * divisor + s.remainder) / divisor := by
        field_simp
      rw [total, lt_div_iff₀ size, sub_mul]
      linarith

/-- What one round of the division takes: as many digits as there is room for. -/
structure Takes (divisor : Nat) (s : Quotient) (k : Nat) : Prop where
  some_ : 1 ≤ k
  ready : (s.extend k divisor).Ready divisor
  short : k = 9 ∨ (s.extend k divisor).Tight 1
  room : ∀ room, s.Tight room → k ≤ room

/-- A quotient without a rest is multiplied up to its places. -/
theorem takes_multiplied {k : Nat} (ready : s.Ready divisor) (settled : s.remainder = 0)
    (some_ : 1 ≤ k) (places : s.scale + k ≤ 0) (full : k = 9 ∨ s.scale + k = 0)
    (small : (s.extend k divisor).digits < coefficientBound) : s.Takes divisor k := by
  have digits : (s.extend k divisor).digits = s.digits * tenTo k := by
    simp [Quotient.extend, settled]
  refine ⟨some_, ⟨Nat.mod_lt _ (Nat.zero_lt_of_lt ready.remainder), small, ?_⟩, ?_, ?_⟩
  · exact places.trans (Int.natCast_nonneg _)
  · apply full.imp_right
    intro all
    right; right
    simp only [Quotient.extend, settled, Nat.zero_mul, Nat.zero_mod, true_and]
    omega
  · rintro room (range | full | ⟨_, near⟩)
    · by_contra beyond
      have more : room + 1 ≤ k := by omega
      have grown := Nat.mul_le_mul_left s.digits (tenTo_mono more)
      omega
    · omega
    · omega

/-- A quotient with a rest takes the digits for which there is room. -/
theorem takes_room (ready : s.Ready divisor) (open_ : s.remainder ≠ 0)
    (some_ : roomFor s.digits s.scale ≠ 0) : s.Takes divisor (roomFor s.digits s.scale) := by
  obtain ⟨nine, member, greatest⟩ := roomFor_spec s.digits s.scale
  obtain ⟨places, digits⟩ := member.resolve_left some_
  generalize roomFor s.digits s.scale = k at *
  have positive : 0 < divisor := Nat.zero_lt_of_lt ready.remainder
  have next : s.remainder * tenTo k / divisor < tenTo k := by
    apply Nat.div_lt_of_lt_mul
    exact Nat.mul_lt_mul_of_pos_right ready.remainder (tenTo_pos k)
  refine ⟨Nat.one_le_iff_ne_zero.mpr some_, ⟨Nat.mod_lt _ positive, ?_, places⟩, ?_, ?_⟩
  · change s.digits * tenTo k + s.remainder * tenTo k / divisor < coefficientBound
    omega
  · rcases Nat.lt_or_eq_of_le nine with short | full
    · right
      have limit : ¬ HasRoom s.digits s.scale (k + 1) := by
        intro room
        exact absurd (greatest (k + 1) short room) (by omega)
      rw [HasRoom, not_and_or] at limit
      rcases limit with last | range
      · right; left
        change (maxScale : Int) ≤ s.scale + k + (1 : Nat)
        omega
      · left
        have grown : tenTo (k + 1) ≤ tenTo 9 := tenTo_mono short
        have large : 2 * tenTo 9 ≤ coefficientBound := by decide
        have hundred : tenTo (1 + 1) = 100 := rfl
        rw [tenTo_succ] at range grown
        rw [← Nat.mul_assoc] at range
        rw [hundred]
        calc coefficientBound ≤ s.digits * tenTo k * 100 := by omega
          _ ≤ _ := Nat.mul_le_mul_right 100 (Nat.le_add_right _ _)
    · exact .inl full
  · rintro room (range | last | ⟨nothing, _⟩)
    · by_contra beyond
      have more : room + 1 ≤ k := by omega
      have grown := Nat.mul_le_mul_left s.digits (tenTo_mono more)
      have least := tenTo_pos k
      omega
    · omega
    · exact absurd nothing open_

/-- Without the places for a full round the quotient is beyond the range or just before it. -/
theorem large_of_no_room {s : Quotient} (short : roomFor s.digits s.scale < 9)
    (places : s.scale + roomFor s.digits s.scale < 0) :
    (coefficientBound : ℚ) - 10 ^ 9 < s.value divisor := by
  obtain ⟨_, _, greatest⟩ := roomFor_spec s.digits s.scale
  generalize roomFor s.digits s.scale = k at *
  have limit : ¬ HasRoom s.digits s.scale (k + 1) := by
    intro room
    exact absurd (greatest (k + 1) short room) (by omega)
  have range : coefficientBound ≤ s.digits * tenTo (k + 1) + tenTo (k + 1) - 1 := by
    by_contra small
    apply limit
    exact ⟨by omega, Nat.lt_of_not_le small⟩
  have step : tenTo (k + 1) ≤ tenTo 9 := tenTo_mono short
  have digits : coefficientBound < s.digits * tenTo (k + 1) + tenTo 9 := by
    have := tenTo_pos (k + 1)
    omega
  have reach := digits_le_value divisor s (k := k + 1) (by omega)
  have exact_ : (coefficientBound : ℚ) < s.digits * 10 ^ (k + 1) + 10 ^ 9 := by
    simp only [Nat.pow_eq] at digits
    exact_mod_cast digits
  linarith

theorem divideLoop_settled {fuel : Nat} {rest : Bool} (settled : s.remainder = 0)
    (nonneg : 0 ≤ s.scale) : divideLoop divisor (fuel + 1) rest s = some (rest, s) := by
  rw [divideLoop, if_pos settled, if_pos nonneg]

/-- One round of the division ends it or takes further digits. -/
theorem divideLoop_succ (ready : s.Ready divisor) (fuel : Nat) (rest : Bool) :
    Ends (s.value divisor) (divideLoop divisor (fuel + 1) rest s) ∨
      ∃ k rest', s.Takes divisor k ∧ divideLoop divisor (fuel + 1) rest s =
        divideLoop divisor fuel rest' (s.extend k divisor) := by
  rw [divideLoop]
  split
  case isTrue settled =>
    split
    case isTrue nonneg => exact .inl (.fits ⟨nonneg, ready.within, ready.digits⟩)
    case isFalse below =>
      have full : Nat.min 9 (-s.scale).toNat = 9 ∨
          s.scale + (Nat.min 9 (-s.scale).toNat : Nat) = 0 := by
        rcases Nat.le_total 9 (-s.scale).toNat with more | all
        · exact .inl (Nat.min_eq_left more)
        · have same : Nat.min 9 (-s.scale).toNat = (-s.scale).toNat := Nat.min_eq_right all
          omega
      have some_ : 1 ≤ Nat.min 9 (-s.scale).toNat := Nat.le_min.mpr ⟨by omega, by omega⟩
      have places : Nat.min 9 (-s.scale).toNat ≤ (-s.scale).toNat := Nat.min_le_right _ _
      generalize Nat.min 9 (-s.scale).toNat = k at *
      dsimp only
      split
      case isTrue small =>
        exact .inr ⟨k, rest, takes_multiplied ready settled some_ (by omega) full small, rfl⟩
      case isFalse large =>
        refine .inl (.overflows ?_)
        have reach := digits_le_value divisor s (k := k) (by omega)
        have beyond : (coefficientBound : ℚ) ≤ s.digits * 10 ^ k := by
          have units := Nat.not_lt.mp large
          simp only [Quotient.extend, settled, Nat.zero_mul, Nat.zero_div, Nat.add_zero,
            Nat.pow_eq] at units
          exact_mod_cast units
        linarith
  case isFalse open_ =>
    have room : (if s.scale = maxScale then 0 else roomFor s.digits s.scale) =
        roomFor s.digits s.scale := by
      split
      case isTrue full =>
        obtain ⟨_, none_ | ⟨places, _⟩, _⟩ := roomFor_spec s.digits s.scale
        · exact none_.symm
        · omega
      case isFalse => rfl
    simp only [room]
    split
    case isTrue none_ => exact .inl (.overflows (large_of_no_room none_.1 none_.2))
    case isFalse enough =>
      split
      case isTrue last =>
        refine .inl (ready.round ?_)
        omega
      case isFalse some_ => exact .inr ⟨_, true, takes_room ready open_ some_, rfl⟩

theorem Tight.divideLoop {room fuel : Nat} (tight : s.Tight room) (ready : s.Ready divisor)
    (enough : room < fuel) (rest : Bool) :
    Ends (s.value divisor) (divideLoop divisor fuel rest s) := by
  induction fuel generalizing s room rest with
  | zero => exact absurd enough (Nat.not_lt_zero room)
  | succ fuel ih =>
    rcases divideLoop_succ ready fuel rest with ended | ⟨k, rest', takes, same⟩
    · exact ended
    · have fewer := takes.room room tight
      have some_ := takes.some_
      rw [same, ← value_extend (Nat.zero_lt_of_lt ready.remainder) s k]
      exact ih (tight.extend fewer) takes.ready (by omega) rest'

/-- Every round takes nine digits until one comes short, and after that there are two at most. -/
theorem Ready.divideLoop {fuel : Nat} (ready : s.Ready divisor)
    (enough : maxScale - s.scale + 27 ≤ 9 * fuel) (rest : Bool) :
    Ends (s.value divisor) (divideLoop divisor fuel rest s) := by
  induction fuel generalizing s rest with
  | zero =>
    have := ready.within
    omega
  | succ fuel ih =>
    have within := ready.within
    rcases divideLoop_succ ready fuel rest with ended | ⟨k, rest', takes, same⟩
    · exact ended
    · rw [same, ← value_extend (Nat.zero_lt_of_lt ready.remainder) s k]
      rcases takes.short with rfl | tight
      · apply ih takes.ready
        simp only [Quotient.extend]
        omega
      · exact tight.divideLoop takes.ready (by omega) rest'

/-- What each try to strip zeros keeps, all of them keep. -/
theorem strip_induction {P : Quotient → Prop}
    (step : ∀ (s : Quotient) (k : Nat), P s → P ((stripZeros k s).getD s)) {s : Quotient}
    (start : P s) : P (stripQuotient s) := by
  have eights : ∀ (fuel : Nat) {s : Quotient}, P s → P (stripQuotient.byEights fuel s) := by
    intro fuel
    induction fuel with
    | zero =>
      intro s start
      exact start
    | succ fuel ih =>
      intro s start
      have stripped := step s 8 start
      rw [stripQuotient.byEights]
      split
      · cases found : stripZeros 8 s with
        | none => exact start
        | some t =>
          rw [found] at stripped
          exact ih stripped
      · exact start
  exact step _ 1 (step _ 2 (step _ 4 (eights 3 start)))

theorem Fits.stripZeros (fits : s.Fits) (k : Nat) : ((stripZeros k s).getD s).Fits := by
  obtain ⟨nonneg, within, digits⟩ := fits
  rw [Decimal.stripZeros]
  split
  case isTrue shorter =>
    obtain ⟨_, places, _⟩ := shorter
    refine ⟨?_, ?_, ?_⟩
    · exact Int.sub_nonneg_of_le places
    · exact Int.le_trans (Int.sub_le_self _ (Int.natCast_nonneg k)) within
    · exact Nat.lt_of_le_of_lt (Nat.div_le_self _ _) digits
  case isFalse => exact ⟨nonneg, within, digits⟩

theorem Fits.strip (fits : s.Fits) : (stripQuotient s).Fits :=
  strip_induction (P := Fits) (fun _ k fits => fits.stripZeros k) fits

end Quotient

/-- The quotient of two magnitudes is a decimal, unless it is at the end of the range. -/
theorem divideMagnitudes_ends {n divisor : Nat} (scale : Int) (positive : 0 < divisor)
    (small : n < coefficientBound) (within : scale ≤ maxScale) (least : -maxScale ≤ scale) :
    (∃ s, divideMagnitudes n divisor scale = some s ∧ s.Fits) ∨
      divideMagnitudes n divisor scale = none ∧
        (coefficientBound : ℚ) - 10 ^ 9 < n / divisor / 10 ^ scale := by
  have ready : (⟨n / divisor, scale, n % divisor⟩ : Quotient).Ready divisor :=
    ⟨Nat.mod_lt _ positive, Nat.lt_of_le_of_lt (Nat.div_le_self _ _) small, within⟩
  have worth : (⟨n / divisor, scale, n % divisor⟩ : Quotient).value divisor =
      n / divisor / 10 ^ scale := by
    have nonzero : (divisor : ℚ) ≠ 0 := Nat.cast_ne_zero.mpr positive.ne'
    have division : (divisor * (n / divisor : Nat) + (n % divisor : Nat) : ℚ) = n := by
      exact_mod_cast Nat.div_add_mod n divisor
    change ((n / divisor : Nat) + (n % divisor : Nat) / divisor : ℚ) / 10 ^ scale = _
    rw [← division, add_div (divisor * _ : ℚ), mul_div_cancel_left₀ _ nonzero]
  have places : maxScale = 28 := rfl
  have ended := ready.divideLoop (show (maxScale : Int) - scale + 27 ≤ 9 * (16 : Nat) by omega) false
  rw [worth] at ended
  rw [divideMagnitudes]
  generalize divideLoop divisor 16 false ⟨n / divisor, scale, n % divisor⟩ = result at ended
  cases ended with
  | overflows large => exact .inr ⟨rfl, large⟩
  | @fits rest t fits =>
    refine .inl ⟨if rest then stripQuotient t else t, rfl, ?_⟩
    split
    · exact fits.strip
    · exact fits

section
variable {a b : Decimal} {cause : Fault}

theorem abs_div_eq (a b : Decimal) : |a.value / b.value| =
    (a.coefficient.natAbs : ℚ) / b.coefficient.natAbs / 10 ^ ((a.scale : Int) - b.scale) := by
  rw [value, value, zpow_sub₀ (by norm_num), zpow_natCast, zpow_natCast, abs_div, abs_div, abs_div,
    abs_of_pos (show (0 : ℚ) < 10 ^ a.scale by positivity),
    abs_of_pos (show (0 : ℚ) < 10 ^ b.scale by positivity), Nat.cast_natAbs, Nat.cast_natAbs,
    Int.cast_abs, Int.cast_abs, div_div_div_comm]

/-- A division by anything but zero has a result, unless the quotient is at the end of the range. -/
theorem div_cases (divides : b.value ≠ 0) : (∃ c, a.div b = .ok c) ∨
    a.div b = .error .division ∧ divideMagnitudes a.coefficient.natAbs b.coefficient.natAbs
      ((a.scale : Int) - b.scale) = none ∧
      (coefficientBound : ℚ) - 10 ^ 9 < |a.value / b.value| := by
  rw [div, if_neg (mt isZero_iff.mp divides)]
  split
  · exact .inl ⟨.zero, rfl⟩
  · have positive : 0 < b.coefficient.natAbs :=
      Int.natAbs_pos.mpr (mt value_eq_zero_iff.mpr divides)
    have left := a.scale_le
    have right := b.scale_le
    have ends := divideMagnitudes_ends ((a.scale : Int) - b.scale) positive
      a.coefficient_lt (by omega) (by omega)
    rw [← abs_div_eq] at ends
    rcases ends with ⟨s, found, fits⟩ | ⟨found, large⟩
    · left
      have nonneg := fits.nonneg
      have within := fits.within
      have inRange : (if (a.coefficient < 0) = (b.coefficient < 0) then (s.digits : Int)
          else -s.digits).natAbs < coefficientBound ∧ s.scale.toNat ≤ maxScale := by
        refine ⟨?_, by omega⟩
        split <;> simpa using fits.digits
      exact ⟨⟨_, _, inRange.1, inRange.2⟩, by simp only [found, ofParts?, dif_pos inRange]⟩
    · right
      rw [found]
      exact ⟨rfl, rfl, large⟩

/-- A division faults by a divisor of zero or a quotient at the end of the range. -/
theorem div_error (failed : a.div b = .error cause) :
    cause = .divisionByZero ∧ b.value = 0 ∨
      cause = .division ∧ (coefficientBound : ℚ) - 10 ^ 9 < |a.value / b.value| := by
  by_cases nothing : b.value = 0
  · rw [div, if_pos (isZero_iff.mpr nothing)] at failed
    exact .inl ⟨(Except.error.inj failed).symm, nothing⟩
  · rcases div_cases (a := a) nothing with ⟨c, done⟩ | ⟨faulted, _, large⟩
    · cases done.symm.trans failed
    · cases faulted.symm.trans failed
      exact .inr ⟨rfl, large⟩

@[simp] theorem value_ofWord (n : UInt32) : (ofWord n).value = n.toNat := by
  simp [value, ofWord]

/-- A division by a whole number has a result. -/
theorem div_ofWord (a : Decimal) {n : UInt32} (least : 1 ≤ n) : ∃ c, a.div (ofWord n) = .ok c := by
  have positive : 1 ≤ n.toNat := UInt32.le_iff_toNat_le.mp least
  have divides : (ofWord n).value ≠ 0 := by
    rw [value_ofWord]
    exact Nat.cast_ne_zero.mpr (Nat.ne_of_gt positive)
  rcases div_cases (a := a) divides with done | ⟨_, stopped, large⟩
  · exact done
  · rcases Nat.lt_or_eq_of_le positive with more | one_
    · -- Half of a decimal is far from the end of the range.
      have half : |a.value / (ofWord n).value| ≤ |a.value| / 2 := by
        rw [value_ofWord, abs_div, Nat.abs_cast]
        apply div_le_div_of_nonneg_left (abs_nonneg _) (by norm_num)
        exact_mod_cast more
      have range := not_le.mp (not_beyond_value a)
      have size : (coefficientBound : ℚ) = 79_228_162_514_264_337_593_543_950_336 := rfl
      linarith
    · have whole : (ofWord n).coefficient.natAbs = 1 := one_.symm
      have places : (0 : Int) ≤ (a.scale : Int) - (ofWord n).scale := by simp [ofWord]
      rw [whole, divideMagnitudes, Quotient.divideLoop_settled (Nat.mod_one _) places] at stopped
      cases stopped

end

end FuturesDesk.Decimal
