import FuturesDesk.Strategy.Condition

/-! What a comparison of readings looks at. It reads what it refers to and nothing else, so that
snapshots with the same readings there are alike to it, and it fails unless all of them are there. -/
namespace FuturesDesk.IndicatorComparison
variable {c : IndicatorComparison} {s t : Snapshot}

theorem forall_mem_references {motive : Timeframe × String → Prop} :
    (∀ r ∈ c.references, motive r) ↔ motive (c.timeframe, c.indicator) ∧
      ∀ name, c.operand = .indicator name → motive (c.timeframe, name) := by
  rw [references, List.forall_mem_cons]
  cases c.operand <;> simp

theorem holds_iff : c.holds s = true ↔ ∃ left right, s.get? c.timeframe c.indicator = some left ∧
    c.operand.value? s c.timeframe = some right ∧ c.comparison.holds left right = true := by
  rw [holds]
  split
  case h_1 left right found operand => simp [found, operand]
  case h_2 missing =>
    refine iff_of_false Bool.false_ne_true ?_
    rintro ⟨left, right, found, operand, -⟩
    exact missing left right found operand

/-- A comparison reads nothing beyond its references. -/
theorem holds_congr (agree : ∀ r ∈ c.references, s.get? r.1 r.2 = t.get? r.1 r.2) :
    c.holds s = c.holds t := by
  obtain ⟨own, named⟩ := forall_mem_references.mp agree
  have operand : c.operand.value? s c.timeframe = c.operand.value? t c.timeframe := by
    cases other : c.operand with
    | constant => rfl
    | indicator name => exact named name other
  rw [holds, holds, own, operand]

/-- A comparison that holds has every reading that it refers to. -/
theorem available_of_holds (holds : c.holds s = true) :
    ∀ r ∈ c.references, ∃ value, s.get? r.1 r.2 = some value := by
  obtain ⟨left, right, found, operand, _⟩ := holds_iff.mp holds
  refine forall_mem_references.mpr ⟨⟨left, found⟩, ?_⟩
  intro name other
  rw [other] at operand
  exact ⟨right, operand⟩

end FuturesDesk.IndicatorComparison
