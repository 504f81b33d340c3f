import FuturesDesk.Proofs.Decimal.Rounding
import FuturesDesk.Proofs.Result
import Mathlib.Algebra.BigOperators.Group.List.Basic
import Mathlib.Data.List.Infix

/-! Sums of lists without rounding. Every addition is exact when each partial sum is a decimal; so a
list that is cut into parts can be added up part by part. -/
namespace FuturesDesk.Decimal

/-- No addition on the way to the sum is rounded or overflows. -/
def SumsExactly (ds : List Decimal) : Prop :=
  ∀ part, part <+: ds → ∃ total, sum part = .ok total ∧ total.value = (part.map value).sum

variable {ds : List Decimal}

theorem sumsExactly_iff_inits : SumsExactly ds ↔
    ∀ part ∈ ds.inits, (sum part).toOption.map value = some (part.map value).sum := by
  simp only [SumsExactly, List.mem_inits, Option.map_eq_some_iff]
  refine forall_congr' fun part => imp_congr_right fun _ => exists_congr fun total => ?_
  cases sum part <;> simp [Except.toOption]

instance (ds : List Decimal) : Decidable (SumsExactly ds) :=
  decidable_of_iff _ sumsExactly_iff_inits.symm

theorem sum_concat (ds : List Decimal) (d : Decimal) :
    sum (ds ++ [d]) = sum ds >>= fun total => total.add d := by
  simp [sum, List.foldlM_append]

/-- An addition whose result is a decimal is exact. -/
theorem add_exact {a b d : Decimal} (worth : a.value + b.value = d.value) :
    ∃ c, a.add b = .ok c ∧ c.value = d.value := by
  obtain ⟨c, added⟩ := add_ok (a := a) (b := b) (Rounds.ofDecimal d) (by rw [worth])
  have rounds := add_rounds added
  rw [worth] at rounds
  exact ⟨c, added, rounds.unique (.ofDecimal d)⟩

theorem sumsExactly_iff : SumsExactly ds ↔
    ∀ part, part <+: ds → ∃ d : Decimal, d.value = (part.map value).sum := by
  constructor
  · intro exact_ part within
    obtain ⟨total, -, worth⟩ := exact_ part within
    exact ⟨total, worth⟩
  · intro representable
    induction ds using List.reverseRecOn with
    | nil =>
      intro part within
      obtain rfl := List.prefix_nil.mp within
      exact ⟨zero, rfl, by simp⟩
    | append_singleton ds d ih =>
      have before := ih fun part within => representable part (within.trans (List.prefix_append _ _))
      intro part within
      rcases List.prefix_concat_iff.mp within with rfl | within
      · obtain ⟨total, summed, worth⟩ := before ds (List.prefix_refl ds)
        obtain ⟨last, reached⟩ := representable _ (List.prefix_refl _)
        have next : total.value + d.value = last.value := by
          rw [worth, reached, List.map_append, List.sum_append, List.map_singleton,
            List.sum_singleton]
        obtain ⟨c, added, same⟩ := add_exact next
        refine ⟨c, ?_, same.trans reached⟩
        rw [sum_concat, summed]
        exact added
      · exact before part within

section
variable {totals : List Decimal} {parts : List (List Decimal)}

theorem sum_flatten
    (each : List.Forall₂ (fun d part => d.value = (part.map value).sum) totals parts) :
    (totals.map value).sum = (parts.flatten.map value).sum := by
  induction each with
  | nil => rfl
  | cons worth _ ih =>
    rw [List.map_cons, List.sum_cons, List.flatten_cons, List.map_append, List.sum_append, worth, ih]

theorem SumsExactly.of_flatten (exact_ : SumsExactly parts.flatten)
    (each : List.Forall₂ (fun d part => d.value = (part.map value).sum) totals parts) :
    SumsExactly totals := by
  rw [sumsExactly_iff] at exact_ ⊢
  intro some_ within
  rw [List.prefix_iff_eq_take.mp within, sum_flatten (List.forall₂_take some_.length each)]
  refine exact_ _ ⟨(parts.drop some_.length).flatten, ?_⟩
  rw [← List.flatten_append, List.take_append_drop]

end

end FuturesDesk.Decimal
