import FuturesDesk.Proofs.Decimal.Total
import Mathlib.Algebra.Order.BigOperators.Group.List
import Mathlib.Data.List.Perm.Subperm

/-! Sums in any order. One addition strays from the exact sum by five parts in `2 ^ 96` at most, so
that a sum of numbers that are not negative strays by as much for each of them, whatever their order;
where all partial sums are decimals it does not stray at all. -/
namespace FuturesDesk.Decimal

/-- A multiple to which a number is rounded lies within half of the divisor. -/
theorem roundHalfEven_error {d : Nat} (positive : 0 < d) (n : Nat) :
    2 * (roundHalfEven n d * d) ≤ 2 * n + d ∧ 2 * n ≤ 2 * (roundHalfEven n d * d) + d := by
  have split := Nat.div_add_mod n d
  have small := Nat.mod_lt n positive
  have product : n / d * d = d * (n / d) := Nat.mul_comm _ _
  have next : (n / d + 1) * d = d * (n / d) + d := by rw [Nat.add_mul, Nat.one_mul, product]
  simp only [roundHalfEven]
  split
  · rw [next]
    omega
  · rw [product]
    omega

/-- The digits that the range drops are a small part of a magnitude. -/
theorem cut_error {n scale : Nat} (places : scale ≤ maxScale) :
    cut n scale * coefficientBound ≤ n * coefficientBound + 5 * n ∧
      n * coefficientBound ≤ cut n scale * coefficientBound + 5 * n := by
  cases dropped : droppedDigits n scale with
  | zero =>
    have fits := (droppedDigits_le_iff.mp (Nat.le_of_eq dropped)).1
    have whole : rounded n scale = n := by
      rw [rounded, dropped]
      exact roundHalfEven_one n
    have same : cut n scale = n := by
      rw [cut, whole, dropped, if_pos (by simpa using fits)]
      exact Nat.mul_one n
    rw [same]
    omega
  | succ k =>
    have high := le_of_not_fits (show k < droppedDigits n scale by omega) (by omega)
    obtain ⟨above, below⟩ := roundHalfEven_error (tenTo_pos (k + 1)) n
    rw [← dropped] at above below
    change 2 * (rounded n scale * _) ≤ _ at above
    change _ ≤ 2 * (rounded n scale * _) + _ at below
    rw [dropped, tenTo_succ] at above below
    rw [cut, dropped]
    split
    case isTrue =>
      rw [tenTo_succ]
      constructor <;> nlinarith
    case isFalse carry =>
      have full : rounded n scale = coefficientBound :=
        Nat.le_antisymm (rounded_le n scale) (Nat.not_lt.mp carry)
      rw [full] at above below
      have grown : carried * tenTo (k + 1 + 1) = (coefficientBound + 4) * (tenTo k * 10) := by
        rw [tenTo_succ, tenTo_succ, ← carried_eq]
        ring
      rw [grown]
      constructor <;> nlinarith

theorem signedCut_error {scale : Nat} (places : scale ≤ maxScale) (n : Int) :
    |signedCut n scale - n| * coefficientBound ≤ 5 * |n| := by
  obtain ⟨above, below⟩ := cut_error (n := n.natAbs) places
  have size : |signedCut n scale - n| = |(cut n.natAbs scale : Int) - n.natAbs| := by
    rw [signedCut]
    split
    case isTrue negative =>
      rw [Int.ofNat_natAbs_of_nonpos negative.le, ← abs_neg]
      congr 1
      ring
    case isFalse nonneg => rw [Int.natAbs_of_nonneg (Int.not_lt.mp nonneg)]
  have above : (cut n.natAbs scale : Int) * coefficientBound ≤
      n.natAbs * coefficientBound + 5 * n.natAbs := by exact_mod_cast above
  have below : (n.natAbs : Int) * coefficientBound ≤
      cut n.natAbs scale * coefficientBound + 5 * n.natAbs := by exact_mod_cast below
  rw [size, ← Int.natCast_natAbs n]
  rcases abs_cases ((cut n.natAbs scale : Int) - n.natAbs) with ⟨same, _⟩ | ⟨same, _⟩
  · rw [same, sub_mul]
    linarith
  · rw [same, neg_sub, sub_mul]
    linarith

/-- What one addition strays from the exact sum. -/
theorem add?_error {a b c : Decimal} (found : add? a b = some c) :
    |c.value - (a.value + b.value)| * coefficientBound ≤ 5 * |a.value + b.value| := by
  have exact_ (same : c.value = a.value + b.value) :
      |c.value - (a.value + b.value)| * coefficientBound ≤ 5 * |a.value + b.value| := by
    rw [same, sub_self, abs_zero, zero_mul]
    positivity
  rw [add?] at found
  split at found
  case isTrue nothing =>
    cases found
    exact exact_ (by rw [isZero_iff.mp nothing, zero_add])
  · split at found
    case isTrue nothing =>
      cases found
      exact exact_ (by rw [isZero_iff.mp nothing, add_zero])
    case isFalse =>
      have places : Nat.max a.scale b.scale ≤ maxScale := Nat.max_le.mpr ⟨a.scale_le, b.scale_le⟩
      have error := signedCut_error places (alignedSum a b)
      have power : (0 : ℚ) < 10 ^ Nat.max a.scale b.scale := by positivity
      have units : (|signedCut (alignedSum a b) (Nat.max a.scale b.scale) - alignedSum a b| : ℚ) *
          coefficientBound ≤ 5 * |(alignedSum a b : ℚ)| := by exact_mod_cast error
      rw [value_of_fit? found, value_add_eq, ← sub_div, abs_div, abs_div, abs_of_pos power,
        div_mul_eq_mul_div, ← mul_div_assoc]
      exact div_le_div_of_nonneg_right units power.le

theorem add_error {a b c : Decimal} (added : a.add b = .ok c) :
    |c.value - (a.value + b.value)| * coefficientBound ≤ 5 * |a.value + b.value| := by
  cases found : add? a b with
  | none => simp [add, found] at added
  | some e =>
    obtain rfl : e = c := by simpa [add, found] using added
    exact add?_error found

theorem sub_error {a b c : Decimal} (left : a.sub b = .ok c) :
    |c.value - (a.value - b.value)| * coefficientBound ≤ 5 * |a.value - b.value| := by
  rw [sub_eq_add_neg a.value, ← value_neg]
  cases found : add? a (-b) with
  | none => simp [sub, found] at left
  | some e =>
    obtain rfl : e = c := by simpa [sub, found] using left
    exact add?_error found

/-- Two results are worth the same, or neither is one. -/
def Agree : Except Fault Decimal → Except Fault Decimal → Prop
  | .ok u, .ok v => u.value = v.value
  | .error _, .error _ => True
  | _, _ => False

section Agree
variable {r s : Except Fault Decimal}

theorem Agree.refl (r : Except Fault Decimal) : Agree r r := by
  cases r with
  | ok u => exact rfl
  | error f => exact trivial

theorem Agree.symm (agree : Agree r s) : Agree s r := by
  cases r <;> cases s
  all_goals first | exact agree | exact Eq.symm agree

theorem Agree.ok {u : Decimal} (agree : Agree r s) (done : r = .ok u) :
    ∃ v, s = .ok v ∧ v.value = u.value := by
  subst done
  cases s with
  | ok v => exact ⟨v, rfl, agree.symm⟩
  | error f => exact agree.elim

theorem agree_of_ok (left : ∀ u, r = .ok u → ∃ v, s = .ok v ∧ v.value = u.value)
    (right : ∀ v, s = .ok v → ∃ u, r = .ok u ∧ u.value = v.value) : Agree r s := by
  cases r with
  | ok u =>
    obtain ⟨v, rfl, worth⟩ := left u rfl
    exact worth.symm
  | error f =>
    cases s with
    | ok v =>
      obtain ⟨u, never, _⟩ := right v rfl
      cases never
    | error g => exact trivial

/-- An addition does not depend on which number comes first. -/
theorem add_swap (a b : Decimal) : Agree (a.add b) (b.add a) := by
  have swapped : ∀ {a b c : Decimal}, a.add b = .ok c →
      ∃ d, b.add a = .ok d ∧ d.value = c.value := by
    intro a b c added
    have rounds := add_rounds added
    rw [add_comm] at rounds
    obtain ⟨d, again⟩ := add_ok (a := b) (b := a) rounds le_rfl
    exact ⟨d, again, (add_rounds again).unique rounds⟩
  exact agree_of_ok (fun _ => swapped) (fun _ => swapped)

/-- What is left does not depend on how the part taken away is written. -/
theorem sub_agree (a : Decimal) {b c : Decimal} (worth : b.value = c.value) :
    Agree (a.sub b) (a.sub c) := by
  have rewritten : ∀ {b c d : Decimal}, b.value = c.value → a.sub b = .ok d →
      ∃ e, a.sub c = .ok e ∧ e.value = d.value := by
    intro b c d worth left
    have rounds := sub_rounds left
    rw [worth] at rounds
    obtain ⟨e, again⟩ := sub_ok (a := a) (b := c) rounds le_rfl
    exact ⟨e, again, (sub_rounds again).unique rounds⟩
  exact agree_of_ok (fun _ => rewritten worth) (fun _ => rewritten worth.symm)

end Agree

variable {ds other : List Decimal} {total : Decimal}

/-- A total is not negative and strays from an exact sum by what so many additions may stray. -/
structure Strays (additions : Nat) (exact_ : ℚ) (total : Decimal) : Prop where
  nonneg : 0 ≤ total.value
  near : |total.value - exact_| * (coefficientBound - 5) ≤ 5 * additions * total.value

/-- One more addition adds its own error to the one of the sum before it. -/
theorem Strays.add {additions : Nat} {exact_ : ℚ} {before d : Decimal}
    (strays : Strays additions exact_ before) (grows : 0 ≤ d.value)
    (added : before.add d = .ok total) : Strays (additions + 1) (exact_ + d.value) total := by
  have start := strays.nonneg
  have larger := (add_rounds added).le_of_le (a := before) (by linarith)
  have error := add_error added
  rw [abs_of_nonneg (by linarith : 0 ≤ before.value + d.value)] at error
  refine ⟨start.trans larger, ?_⟩
  have triangle : |total.value - (exact_ + d.value)| ≤
      |total.value - (before.value + d.value)| + |before.value - exact_| := by
    have parts : total.value - (exact_ + d.value) =
        (total.value - (before.value + d.value)) + (before.value - exact_) := by ring
    rw [parts]
    exact abs_add_le _ _
  have near : before.value + d.value ≤
      total.value + |total.value - (before.value + d.value)| := by
    linarith [neg_abs_le (total.value - (before.value + d.value))]
  have scaled : (5 * additions * before.value : ℚ) ≤ 5 * additions * total.value :=
    mul_le_mul_of_nonneg_left larger (by positivity)
  have bound : (0 : ℚ) ≤ coefficientBound - 5 := by norm_num
  calc |total.value - (exact_ + d.value)| * (coefficientBound - 5)
      ≤ (|total.value - (before.value + d.value)| + |before.value - exact_|) *
          (coefficientBound - 5) := mul_le_mul_of_nonneg_right triangle bound
    _ = |total.value - (before.value + d.value)| * coefficientBound -
          5 * |total.value - (before.value + d.value)| +
          |before.value - exact_| * (coefficientBound - 5) := by ring
    _ ≤ 5 * total.value + 5 * additions * total.value := by linarith [strays.near]
    _ = 5 * (additions + 1 : Nat) * total.value := by
        push_cast
        ring

/-- What a sum of numbers that are not negative strays from the exact one. -/
theorem sum_strays (nonneg : ∀ d ∈ ds, 0 ≤ d.value) (summed : sum ds = .ok total) :
    Strays ds.length (ds.map value).sum total := by
  induction ds using List.reverseRecOn generalizing total with
  | nil =>
    obtain rfl : zero = total := by simpa [sum, pure, Except.pure] using summed
    constructor <;> simp
  | append_singleton ds d ih =>
    rw [sum_concat, bind_ok] at summed
    obtain ⟨before, partly, added⟩ := summed
    have strays := ih (fun d member => nonneg d (List.mem_append_left _ member)) partly
    rw [List.map_append, List.sum_append, List.map_singleton, List.sum_singleton,
      List.length_append, List.length_singleton]
    exact strays.add (nonneg d (by simp)) added

/-- Two sums of the same numbers in different orders are close to each other. -/
theorem sums_close {again : Decimal} (nonneg : ∀ d ∈ ds, 0 ≤ d.value) (same : other.Perm ds)
    (summed : sum ds = .ok total) (summed' : sum other = .ok again) :
    |again.value - total.value| * (coefficientBound - 5) ≤
      5 * ds.length * (total.value + again.value) := by
  have left := (sum_strays nonneg summed).near
  have right := (sum_strays (fun d member => nonneg d (same.mem_iff.mp member)) summed').near
  rw [(same.map value).sum_eq, same.length_eq] at right
  have triangle := abs_sub_le again.value (ds.map value).sum total.value
  rw [abs_sub_comm (ds.map value).sum] at triangle
  have bound : (0 : ℚ) ≤ coefficientBound - 5 := by norm_num
  have scaled := mul_le_mul_of_nonneg_right triangle bound
  linarith

def SubsumsFit (ds : List Decimal) : Prop :=
  ∀ part : List Decimal, part.Subperm ds → ∃ d : Decimal, d.value = (part.map value).sum

theorem SubsumsFit.sum_eq (fit : SubsumsFit ds) (same : other.Perm ds) :
    ∃ total, sum other = .ok total ∧ total.value = (ds.map value).sum := by
  have exact_ : SumsExactly other := by
    rw [sumsExactly_iff]
    intro part within
    exact fit part (within.sublist.subperm.trans same.subperm)
  obtain ⟨total, summed, worth⟩ := exact_ other (List.prefix_refl other)
  exact ⟨total, summed, worth.trans (same.map value).sum_eq⟩

/-- Such numbers are summed up without rounding, in any order. -/
theorem SubsumsFit.agree {third : List Decimal} (fit : SubsumsFit ds) (same : other.Perm ds)
    (same' : third.Perm ds) : Agree (sum other) (sum third) := by
  obtain ⟨first, summed, worth⟩ := fit.sum_eq same
  obtain ⟨again, summed', worth'⟩ := fit.sum_eq same'
  rw [summed, summed']
  exact worth.trans worth'.symm

def unitsAt (places : Nat) (d : Decimal) : Int := d.coefficient * tenTo (places - d.scale)

theorem value_units {d : Decimal} {places : Nat} (within : d.scale ≤ places) :
    d.value = d.unitsAt places / (10 : ℚ) ^ places := by
  have power : (10 : ℚ) ^ places = 10 ^ (places - d.scale) * 10 ^ d.scale := by
    rw [← pow_add, Nat.sub_add_cancel within]
  rw [value, div_eq_div_iff (by positivity) (by positivity), power]
  simp only [unitsAt, Nat.pow_eq]
  push_cast
  ring

theorem sum_units {places : Nat} (each : ∀ d ∈ ds, d.scale ≤ places) :
    (ds.map value).sum = (ds.map (unitsAt places)).sum / (10 : ℚ) ^ places := by
  induction ds with
  | nil => simp
  | cons d ds ih =>
    have first := value_units (each d List.mem_cons_self)
    have rest := ih fun d member => each d (List.mem_cons_of_mem _ member)
    rw [List.map_cons, List.sum_cons, List.map_cons, List.sum_cons, first, rest, Int.cast_add,
      add_div]

theorem natAbs_sum_le (places : Nat) (ds : List Decimal) :
    (ds.map (unitsAt places)).sum.natAbs ≤ (ds.map fun d => (d.unitsAt places).natAbs).sum := by
  induction ds with
  | nil => exact Nat.le_refl 0
  | cons d ds ih =>
    rw [List.map_cons, List.sum_cons, List.map_cons, List.sum_cons]
    exact (Int.natAbs_add_le _ _).trans (Nat.add_le_add_left ih _)

/-- The sums of some of the numbers are decimals, if all of them together are one in the units of the
last place of each. -/
theorem subsumsFit_of_places {places : Nat} (within : places ≤ maxScale)
    (each : ∀ d ∈ ds, d.scale ≤ places)
    (small : (ds.map fun d => (d.unitsAt places).natAbs).sum < coefficientBound) :
    SubsumsFit ds := by
  intro part some_
  obtain ⟨ordered, same, sub⟩ := some_
  have fewer : (part.map fun d => (d.unitsAt places).natAbs).sum ≤
      (ds.map fun d => (d.unitsAt places).natAbs).sum := by
    rw [← (same.map _).sum_eq]
    exact (sub.map _).sum_le_sum (fun _ _ => Nat.zero_le _)
  have fits : (part.map (unitsAt places)).sum.natAbs < coefficientBound :=
    Nat.lt_of_le_of_lt ((natAbs_sum_le places part).trans fewer) small
  refine ⟨⟨_, places, fits, within⟩, ?_⟩
  rw [sum_units fun d member => each d (sub.subset (same.mem_iff.mpr member))]
  rfl

theorem perm_pair {a b : Decimal} (same : other.Perm [a, b]) :
    other = [a, b] ∨ other = [b, a] := by
  obtain ⟨first, second, rfl⟩ := List.length_eq_two.mp same.length_eq
  have either : first = a ∨ first = b := by simpa using same.mem_iff.mp List.mem_cons_self
  rcases either with rfl | rfl
  · rw [List.singleton_perm_singleton.mp (same.cons_inv)]
    exact .inl rfl
  · have swapped := same.trans (List.Perm.swap first a [])
    rw [List.singleton_perm_singleton.mp swapped.cons_inv]
    exact .inr rfl

theorem sum_pair (a b : Decimal) : sum [a, b] = a.add b := sum_concat [a] b

/-- Two numbers have one sum. -/
theorem agree_of_length_le (short : ds.length ≤ 2) (same : other.Perm ds) :
    Agree (sum ds) (sum other) := by
  match ds, short, same with
  | [], _, same =>
    rw [same.eq_nil]
    exact .refl _
  | [a], _, same =>
    rw [List.perm_singleton.mp same]
    exact .refl _
  | [a, b], _, same =>
    rcases perm_pair same with rfl | rfl
    · exact .refl _
    · rw [sum_pair, sum_pair]
      exact add_swap a b

end FuturesDesk.Decimal
