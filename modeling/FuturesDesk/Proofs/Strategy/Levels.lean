import FuturesDesk.Proofs.Strategy.StopPrice
import FuturesDesk.Proofs.Strategy.TrackerFields

/-! The levels that a trailing stop keeps. An entry is positive and the extreme is on the
position's side of it. The extreme of a long position is positive for that reason. That of a short
one is positive as long as every observed price is: a price that is not positive is refused at the
entry only. -/
namespace FuturesDesk.TrailingStop

/-- The best price of a position that was entered at a positive price. -/
theorem best_positive_iff {direction : Direction} {entry best : Decimal} {prices : List Decimal}
    (entered : .zero < entry) (b : direction.Best (entry :: prices) best) :
    .zero < best ↔ direction = .long ∨ ∀ price ∈ prices, .zero < price := by
  have least : ∀ {low high : Decimal}, .zero < low → low ≤ high → .zero < high := by
    intro low high positive above
    rw [Decimal.zero_lt_iff_value] at positive ⊢
    exact positive.trans_le (Decimal.le_iff_value.mp above)
  cases direction with
  | long => exact iff_of_true (least entered (b.noWorse entry List.mem_cons_self)) (.inl rfl)
  | short =>
    constructor
    · intro positive
      refine .inr ?_
      intro price member
      exact least positive (b.noWorse price (List.mem_cons_of_mem _ member))
    · rintro (side | positive)
      · cases side
      · rcases List.mem_cons.mp b.mem with same | member
        · rwa [same]
        · exact positive best member

/-- The stop price of a short position is not between zero and its extreme. -/
theorem stopPrice?_short {s : TrailingStop} {p : TrackedPosition} {stop : Decimal}
    (allowed : Allowed s.percent) (open_ : s.position = some p) (direction : p.direction = .short)
    (computed : s.stopPrice? = .ok (some stop)) :
    (.zero < p.extreme → p.extreme ≤ stop) ∧ (¬ .zero < p.extreme → stop ≤ p.extreme) := by
  obtain ⟨factor, found, product⟩ := stopPrice?_product open_ computed
  rw [direction] at found
  have atLeastOne := allowed.short found
  have rounds := Decimal.mul_rounds product
  rw [Decimal.zero_lt_iff_value, Decimal.le_iff_value, Decimal.le_iff_value]
  constructor
  · intro positive
    exact rounds.le_of_le (le_mul_of_one_le_right positive.le atLeastOne)
  · intro negative
    refine rounds.ge_of_ge ?_
    exact mul_le_of_one_le_right (not_lt.mp negative) atLeastOne

theorem check_reached {s : TrailingStop} {p : TrackedPosition} {stop price : Decimal}
    (open_ : s.position = some p) (computed : s.stopPrice? = .ok (some stop))
    (reached : p.direction.NoWorse price stop) :
    ((Use.check price).perform s).1 = .checked true := by
  have level : stopOf s.percent p = .ok stop := by
    simp only [stopPrice?, open_] at computed
    cases found : stopOf s.percent p with
    | error f => simp [found, Except.map] at computed
    | ok level => simpa [found, Except.map] using computed
  have triggered : s.triggeredStop? price = .ok (some stop) := by
    cases direction : p.direction <;> rw [direction] at reached <;>
      simp [triggeredStop?, open_, level, direction, show _ ≤ _ from reached]
  simp only [Use.perform, triggered, Option.isSome_some]

/-- However a trailing stop is used, its percentage stays between 0 and 100, its prices are zero
while flat, also where they are fields of their own, and while open the entry is positive with the
extreme on the position's side of it. The extreme is positive unless the position is short and a
price that is not positive was observed. As long as it is, the stop price is a level: zero or more,
with the extreme on its better side. Otherwise every positive price counts as having reached it. -/
theorem levels_unless_worthless {percent : Decimal} {new : TrailingStop}
    (made : ofPercent percent = .ok new) (uses : List Use) :
    (.zero < (new.run uses).percent ∧ (new.run uses).percent < .hundred) ∧
    ((new.run uses).isOpen = false →
      (new.run uses).entry = .zero ∧ (new.run uses).extreme = .zero) ∧
    (∃ fields, Cells.ofPercent percent = .ok fields ∧ fields.run uses = (new.run uses).cells ∧
      ((fields.run uses).isOpen = false →
        (fields.run uses).entry = .zero ∧ (fields.run uses).extreme = .zero)) ∧
    ∀ p, (new.run uses).position = some p →
      .zero < p.entry ∧ p.direction.NoWorse p.entry p.extreme ∧
      (∃ since, new.EnteredBy uses p.direction p.entry since ∧
        (.zero < p.extreme ↔ p.direction = .long ∨ ∀ price ∈ observed since, .zero < price)) ∧
      ∀ stop, (new.run uses).stopPrice? = .ok (some stop) →
        (.zero < p.extreme → .zero ≤ stop ∧ p.direction.NoWorse stop p.extreme) ∧
        (¬ .zero < p.extreme → ∀ price, .zero < price →
          ((Use.check price).perform (new.run uses)).1 = .checked true) := by
  have allowed := Allowed.of_run made uses
  obtain ⟨fields, inStep, _, cleared⟩ := fields_in_step made uses
  obtain ⟨_, rfl⟩ := ofPercent_ok made
  refine ⟨⟨allowed.positive, allowed.below⟩, ?_, ⟨_, fields, inStep, cleared⟩, ?_⟩
  · intro flat
    have closed : (TrailingStop.run ⟨percent, none⟩ uses).position = none := by
      simpa [isOpen] using flat
    simp [entry, extreme, closed]
  · intro p open_
    obtain ⟨since, entered, best⟩ := best_of_open rfl uses p open_
    have signs := best_positive_iff entered.positive best
    refine ⟨entered.positive, best.noWorse _ List.mem_cons_self, ⟨since, entered, signs⟩, ?_⟩
    intro stop computed
    cases direction : p.direction with
    | long =>
      have positive := signs.mpr (.inl direction)
      obtain ⟨_, same, nonneg, below⟩ := stopPrice?_long allowed open_ direction positive
      rw [computed] at same
      cases same
      exact ⟨fun _ => ⟨nonneg, below⟩, fun negative => absurd positive negative⟩
    | short =>
      obtain ⟨above, below⟩ := stopPrice?_short allowed open_ direction computed
      constructor
      · intro positive
        refine ⟨?_, above positive⟩
        rw [Decimal.le_iff_value, Decimal.value_zero]
        exact (Decimal.zero_lt_iff_value.mp positive).le.trans
          (Decimal.le_iff_value.mp (above positive))
      · intro negative price positive
        refine check_reached open_ computed ?_
        rw [direction]
        have low := Decimal.le_iff_value.mp (below negative)
        rw [Decimal.zero_lt_iff_value] at negative positive
        exact Decimal.le_iff_value.mpr (by linarith)

def dip : List Use := [.enter .short .hundred, .observe .one]

theorem dip_levels :
    ofPercent .one = .ok ⟨.one, none⟩ ∧
      (TrailingStop.run ⟨.one, none⟩ dip).position = some ⟨.short, .hundred, .one⟩ ∧
      ∃ since, EnteredBy ⟨.one, none⟩ dip .short .hundred since ∧
        (.zero < Decimal.one ↔ Direction.short = .long ∨
          ∀ price ∈ observed since, .zero < price) := by
  have made : ofPercent .one = .ok ⟨.one, none⟩ := by decide
  have open_ : (TrailingStop.run ⟨.one, none⟩ dip).position =
      some ⟨.short, .hundred, .one⟩ := by decide
  obtain ⟨_, _, _, positions⟩ := levels_unless_worthless made dip
  obtain ⟨_, _, signs, _⟩ := positions _ open_
  exact ⟨made, open_, signs⟩

/-- A short position that observes a negative price is open with a negative extreme. -/
theorem dip_below_zero :
    ofPercent .one = .ok ⟨.one, none⟩ ∧
      let sunk := (⟨.one, none⟩ : TrailingStop).run (dip ++ [.observe .negOne])
      sunk.isOpen = true ∧ ¬ .zero < sunk.extreme := by
  decide

end FuturesDesk.TrailingStop
