import FuturesDesk.Proofs.Decimal.Fraction
import FuturesDesk.Proofs.Strategy.Uses

/-! The stop price that trails a position. It is the extreme times a factor that the percentage and
the direction fix, and rounding keeps the order, so that it moves only the way the extreme does. The
factor of a long position lies between zero and one. -/
namespace FuturesDesk

/-- Products with one number that is not negative keep the order. -/
theorem Decimal.mul_mono {a b c x y : Decimal} (left : a.mul c = .ok x) (right : b.mul c = .ok y)
    (nonneg : 0 ≤ c.value) (le : a ≤ b) : x ≤ y := by
  have products : a.value * c.value ≤ b.value * c.value :=
    mul_le_mul_of_nonneg_right (le_iff_value.mp le) nonneg
  exact le_iff_value.mpr ((mul_rounds left).mono (mul_rounds right) products)

namespace TrailingStop

/-- The stop price of a position is its extreme times this. -/
def factorOf (percent : Decimal) (direction : Direction) : Except Decimal.Fault Decimal := do
  let fraction ← percent.div .hundred
  match direction with
  | .long => Decimal.one.sub fraction
  | .short => Decimal.one.add fraction

theorem stopOf_eq (percent : Decimal) (p : TrackedPosition) :
    stopOf percent p = (factorOf percent p.direction).bind p.extreme.mul := by
  simp only [stopOf, factorOf]
  cases percent.div .hundred with
  | error f => rfl
  | ok fraction => cases p.direction <;> rfl

theorem stopPrice?_eq {s : TrailingStop} {p : TrackedPosition} (open_ : s.position = some p) :
    s.stopPrice? = ((factorOf s.percent p.direction).bind p.extreme.mul).map some := by
  simp only [stopPrice?, open_, stopOf_eq]

theorem stopPrice?_product {s : TrailingStop} {p : TrackedPosition} {stop : Decimal}
    (open_ : s.position = some p) (computed : s.stopPrice? = .ok (some stop)) :
    ∃ factor, factorOf s.percent p.direction = .ok factor ∧ p.extreme.mul factor = .ok stop := by
  rw [stopPrice?_eq open_] at computed
  cases found : factorOf s.percent p.direction with
  | error f =>
    rw [found] at computed
    cases computed
  | ok factor =>
    refine ⟨factor, rfl, ?_⟩
    rw [found] at computed
    cases times : p.extreme.mul factor with
    | error f => simp [Except.bind, times, Except.map] at computed
    | ok level => simpa [Except.bind, times, Except.map] using computed

structure Allowed (percent : Decimal) : Prop where
  positive : .zero < percent
  below : percent < .hundred

theorem ofPercent_ok {percent : Decimal} {s : TrailingStop} (made : ofPercent percent = .ok s) :
    Allowed percent ∧ s = ⟨percent, none⟩ := by
  rw [ofPercent] at made
  split at made
  · cases made
  case isFalse allowed =>
    obtain ⟨low, high⟩ := not_or.mp allowed
    cases made
    refine ⟨⟨?_, ?_⟩, rfl⟩
    · exact Decimal.zero_lt_iff_value.mpr (lt_of_not_ge (mt Decimal.le_zero_iff_value.mpr low))
    · exact Decimal.lt_iff_value.mpr (lt_of_not_ge (mt Decimal.le_iff_value.mpr high))

namespace Allowed
variable {percent factor : Decimal}

theorem fraction (allowed : Allowed percent) : ∃ fraction, percent.div .hundred = .ok fraction ∧
    0 ≤ fraction.value ∧ fraction.value ≤ 1 :=
  Decimal.div_under_one (le_of_lt (Decimal.zero_lt_iff_value.mp allowed.positive))
    (Decimal.lt_iff_value.mp allowed.below) (Nat.zero_le _)

theorem long (allowed : Allowed percent) : ∃ factor, factorOf percent .long = .ok factor ∧
    0 ≤ factor.value ∧ factor.value ≤ 1 := by
  obtain ⟨fraction, found, nonneg, atMostOne⟩ := allowed.fraction
  have size : |Decimal.one.value - fraction.value| ≤ |Decimal.one.value| := by
    rw [Decimal.value_one, abs_of_nonneg (by linarith), abs_one]
    linarith
  obtain ⟨factor, difference⟩ := Decimal.sub_ok (.ofDecimal .one) size
  have rounds := Decimal.sub_rounds difference
  refine ⟨factor, ?_, rounds.nonneg (by simpa using atMostOne), ?_⟩
  · simp only [factorOf, found]
    exact difference
  · simpa using rounds.ge_of_ge (a := .one) (by simpa using nonneg)

theorem short (allowed : Allowed percent) (found : factorOf percent .short = .ok factor) :
    1 ≤ factor.value := by
  obtain ⟨fraction, divided, nonneg, _⟩ := allowed.fraction
  simp only [factorOf, divided] at found
  simpa using (Decimal.add_rounds found).le_of_le (a := .one) (by simpa using nonneg)

theorem nonneg (allowed : Allowed percent) {direction : Direction}
    (found : factorOf percent direction = .ok factor) : 0 ≤ factor.value := by
  cases direction with
  | long =>
    obtain ⟨_, same, nonneg, _⟩ := allowed.long
    rw [found] at same
    cases same
    exact nonneg
  | short => exact zero_le_one.trans (allowed.short found)

end Allowed

/-- The extreme of a position never becomes worse, and a stop that is not reset keeps it. -/
theorem extreme_noWorse {s : TrailingStop} {p : TrackedPosition} (open_ : s.position = some p)
    (later : List Use) (kept : .reset ∉ later) :
    ∃ q, (s.run later).position = some q ∧ q.direction = p.direction ∧ q.entry = p.entry ∧
      p.direction.NoWorse p.extreme q.extreme := by
  induction later using List.reverseRecOn with
  | nil => exact ⟨p, open_, rfl, rfl, .refl _ _⟩
  | append_singleton later u ih =>
    obtain ⟨keptBefore, notReset⟩ : .reset ∉ later ∧ u ≠ .reset := by
      simpa [eq_comm] using kept
    obtain ⟨q, stillOpen, direction, entry, noWorse⟩ := ih keptBefore
    rw [run_concat]
    obtain ⟨reply, after, performed⟩ : ∃ reply after, u.perform (s.run later) = (reply, after) :=
      ⟨_, _, rfl⟩
    rw [performed]
    cases performs_of_eq performed with
    | entered flat =>
      rw [stillOpen] at flat
      cases flat
    | @improved price _ before better =>
      obtain rfl : q = _ := Option.some.inj (stillOpen.symm.trans before)
      rw [direction] at better
      exact ⟨_, rfl, direction, entry, noWorse.trans (.of_not better)⟩
    | reset => exact absurd rfl notReset
    | occupied | worthless | passed | idle | checked =>
      exact ⟨q, stillOpen, direction, entry, noWorse⟩

/-- Two positions of one direction: the stop price is no worse behind the better extreme. -/
theorem stopPrice?_mono {s t : TrailingStop} {p q : TrackedPosition} {stop later : Decimal}
    (allowed : Allowed s.percent) (percent : t.percent = s.percent)
    (before : s.position = some p) (after : t.position = some q)
    (direction : q.direction = p.direction) (noWorse : p.direction.NoWorse p.extreme q.extreme)
    (first : s.stopPrice? = .ok (some stop)) (second : t.stopPrice? = .ok (some later)) :
    p.direction.NoWorse stop later := by
  obtain ⟨factor, found, left⟩ := stopPrice?_product before first
  obtain ⟨_, same, right⟩ := stopPrice?_product after second
  rw [percent, direction, found] at same
  cases same
  have nonneg := allowed.nonneg found
  cases side : p.direction with
  | long =>
    rw [side] at noWorse
    exact Decimal.mul_mono left right nonneg noWorse
  | short =>
    rw [side] at noWorse
    exact Decimal.mul_mono right left nonneg noWorse

/-- The stop price of a long position can always be computed. -/
theorem stopPrice?_long {s : TrailingStop} {p : TrackedPosition} (allowed : Allowed s.percent)
    (open_ : s.position = some p) (direction : p.direction = .long) (positive : .zero < p.extreme) :
    ∃ stop, s.stopPrice? = .ok (some stop) ∧ .zero ≤ stop ∧ stop ≤ p.extreme := by
  obtain ⟨factor, found, nonneg, atMostOne⟩ := allowed.long
  have extreme := (Decimal.zero_lt_iff_value.mp positive).le
  have below : p.extreme.value * factor.value ≤ p.extreme.value :=
    mul_le_of_le_one_right extreme atMostOne
  have above : 0 ≤ p.extreme.value * factor.value := mul_nonneg extreme nonneg
  have size : |p.extreme.value * factor.value| ≤ |p.extreme.value| := by
    rwa [abs_of_nonneg above, abs_of_nonneg extreme]
  obtain ⟨stop, product⟩ := Decimal.mul_ok (.ofDecimal p.extreme) size
  have rounds := Decimal.mul_rounds product
  refine ⟨stop, ?_, ?_, Decimal.le_iff_value.mpr (rounds.ge_of_ge below)⟩
  · rw [stopPrice?_eq open_, direction, found]
    simp [Except.bind, product, Except.map]
  · rw [Decimal.le_iff_value, Decimal.value_zero]
    exact rounds.nonneg above

theorem Allowed.of_run {percent : Decimal} {new : TrailingStop}
    (made : ofPercent percent = .ok new) (uses : List Use) : Allowed (new.run uses).percent := by
  obtain ⟨allowed, rfl⟩ := ofPercent_ok made
  rwa [run_percent]

/-- However a trailing stop is used, it takes an entry while flat and at a positive price, the
extreme of an open position is the best price since the entry, and neither a refused use nor a check
changes anything. The stop price moves only the way the extreme does, as far as it can be computed.
That of a long position always can, and lies between zero and the extreme. -/
theorem trails_best_price {percent : Decimal} {new : TrailingStop}
    (made : ofPercent percent = .ok new) :
    (∀ uses direction price, ((Use.enter direction price).perform (new.run uses)).1 = .done ↔
      (new.run uses).position = none ∧ .zero < price) ∧
    (∀ uses p, (new.run uses).position = some p → ∃ since,
      new.EnteredBy uses p.direction p.entry since ∧
        p.direction.Best (p.entry :: observed since) p.extreme) ∧
    (∀ uses u, (∃ price, u = .check price) ∨ (∃ e, (u.perform (new.run uses)).1 = .refused e) →
      new.run (uses ++ [u]) = new.run uses) ∧
    (∀ uses p later, (new.run uses).position = some p → .reset ∉ later →
      ∃ q, (new.run (uses ++ later)).position = some q ∧ q.direction = p.direction ∧
        q.entry = p.entry ∧
        ∀ stop final, (new.run uses).stopPrice? = .ok (some stop) →
          (new.run (uses ++ later)).stopPrice? = .ok (some final) →
          p.direction.NoWorse stop final) ∧
    ∀ uses p, (new.run uses).position = some p → p.direction = .long →
      ∃ stop, (new.run uses).stopPrice? = .ok (some stop) ∧ .zero ≤ stop ∧ stop ≤ p.extreme := by
  have allowed := Allowed.of_run made
  obtain ⟨_, rfl⟩ := ofPercent_ok made
  have best := best_of_open (s := ⟨percent, none⟩) rfl
  refine ⟨fun _ _ _ => enter_done_iff, best, ?_, ?_, ?_⟩
  · intro uses u without
    rw [run_concat]
    exact (perform_performs _ u).unchanged without
  · intro uses p later open_ kept
    rw [run_append]
    obtain ⟨q, stillOpen, direction, entry, noWorse⟩ := extreme_noWorse open_ later kept
    refine ⟨q, stillOpen, direction, entry, ?_⟩
    intro stop final first second
    exact stopPrice?_mono (allowed uses) (run_percent _ later) open_ stillOpen direction noWorse
      first second
  · intro uses p open_ long
    refine stopPrice?_long (allowed uses) open_ long ?_
    obtain ⟨since, entered, best⟩ := best uses p open_
    rw [long] at best
    have atLeast : p.entry ≤ p.extreme := best.noWorse p.entry List.mem_cons_self
    rw [Decimal.zero_lt_iff_value]
    exact (Decimal.zero_lt_iff_value.mp entered.positive).trans_le (Decimal.le_iff_value.mp atLeast)

def climb : List Use :=
  [.observe .one, .enter .long .hundred, .enter .short .one, .observe (.ofWord 120),
    .observe .one]

theorem climb_trails :
    ofPercent .one = .ok ⟨.one, none⟩ ∧
      let risen := (⟨.one, none⟩ : TrailingStop).run climb
      risen.position = some ⟨.long, .hundred, .ofWord 120⟩ ∧
        (∃ since, EnteredBy ⟨.one, none⟩ climb .long .hundred since ∧
          Direction.long.Best (.hundred :: observed since) (.ofWord 120)) ∧
        TrailingStop.run ⟨.one, none⟩ (climb ++ [.check .one]) = risen ∧
        (∃ q, (TrailingStop.run ⟨.one, none⟩ (climb ++ [.observe (.ofWord 130)])).position =
          some q ∧ q.entry = .hundred) ∧
        ∃ stop, risen.stopPrice? = .ok (some stop) ∧ .zero ≤ stop ∧ stop ≤ .ofWord 120 := by
  have made : ofPercent .one = .ok ⟨.one, none⟩ := by decide
  have open_ : ((⟨.one, none⟩ : TrailingStop).run climb).position =
      some ⟨.long, .hundred, .ofWord 120⟩ := by decide
  obtain ⟨_, best, unchanged, moves, long⟩ := trails_best_price made
  obtain ⟨q, kept, _, entry, _⟩ := moves climb _ [.observe (.ofWord 130)] open_ (by decide)
  exact ⟨made, open_, best climb _ open_, unchanged climb _ (.inl ⟨_, rfl⟩), ⟨q, kept, entry⟩,
    long climb _ open_ rfl⟩

end TrailingStop

end FuturesDesk
