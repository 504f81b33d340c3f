import FuturesDesk.Proofs.Decimal.Value
import FuturesDesk.Proofs.Strategy.TrailingStop

/-! A trailing stop in use. Its owner may enter, observe, check and reset in any order and at any
price, and is refused where a use does not fit. While a position is open, its extreme is the best of
the price that it was entered at and of the prices observed since. -/
namespace FuturesDesk

def Direction.NoWorse : Direction → Decimal → Decimal → Prop
  | .long, other, price => other ≤ price
  | .short, other, price => price ≤ other

theorem Direction.NoWorse.refl (direction : Direction) (price : Decimal) :
    direction.NoWorse price price := by
  cases direction <;> exact Decimal.le_iff_value.mpr le_rfl

theorem Direction.NoWorse.trans {direction : Direction} {a b c : Decimal}
    (first : direction.NoWorse a b) (second : direction.NoWorse b c) : direction.NoWorse a c := by
  cases direction
  · exact Decimal.le_iff_value.mpr
      ((Decimal.le_iff_value.mp first).trans (Decimal.le_iff_value.mp second))
  · exact Decimal.le_iff_value.mpr
      ((Decimal.le_iff_value.mp second).trans (Decimal.le_iff_value.mp first))

theorem Direction.NoWorse.of_not {direction : Direction} {a b : Decimal}
    (better : ¬ direction.NoWorse a b) : direction.NoWorse b a := by
  cases direction
  · exact Decimal.le_iff_value.mpr (le_of_not_ge (mt Decimal.le_iff_value.mpr better))
  · exact Decimal.le_iff_value.mpr (le_of_not_ge (mt Decimal.le_iff_value.mpr better))

/-- One of the prices that no other one is better than. -/
structure Direction.Best (direction : Direction) (prices : List Decimal) (best : Decimal) :
    Prop where
  mem : best ∈ prices
  noWorse : ∀ price ∈ prices, direction.NoWorse price best

namespace Direction.Best
variable {direction : Direction} {prices : List Decimal} {best price : Decimal}

theorem single (direction : Direction) (price : Decimal) : direction.Best [price] price where
  mem := List.mem_singleton_self price
  noWorse := by
    intro other member
    rw [List.mem_singleton.mp member]
    exact .refl direction price

/-- A further price that the best one is no worse than. -/
theorem keep (b : direction.Best prices best) (worse : direction.NoWorse price best) :
    direction.Best (prices ++ [price]) best where
  mem := List.mem_append_left _ b.mem
  noWorse := by
    intro other member
    rcases List.mem_append.mp member with old | new
    · exact b.noWorse other old
    · rwa [List.mem_singleton.mp new]

theorem improve (b : direction.Best prices best) (better : direction.NoWorse best price) :
    direction.Best (prices ++ [price]) price where
  mem := List.mem_append_right _ (List.mem_singleton_self price)
  noWorse := by
    intro other member
    rcases List.mem_append.mp member with old | new
    · exact (b.noWorse other old).trans better
    · rw [List.mem_singleton.mp new]
      exact .refl direction price

end Direction.Best

namespace TrailingStop

inductive Use where
  | enter (direction : Direction) (price : Decimal)
  | observe (price : Decimal)
  /-- Asks whether a price has reached the stop price. -/
  | check (price : Decimal)
  | reset
  deriving DecidableEq

inductive Reply where
  | done
  | refused (error : TrackerError)
  | checked (reached : Bool)
  /-- The stop price has no value in range. -/
  | fault (cause : Decimal.Fault)
  deriving DecidableEq

namespace Use

/-- A change that may be refused, and then leaves the stop as it was. -/
def attempt {S : Type} (s : S) : Except TrackerError S → Reply × S
  | .ok changed => (.done, changed)
  | .error e => (.refused e, s)

def perform (s : TrailingStop) : Use → Reply × TrailingStop
  | enter direction price => attempt s (s.enter direction price)
  | observe price => attempt s (s.observe price)
  | check price =>
    match s.triggeredStop? price with
    | .ok level => (.checked level.isSome, s)
    | .error f => (.fault f, s)
  | reset => (.done, s.reset)

def observed? : Use → Option Decimal
  | observe price => some price
  | _ => none

end Use

def run (s : TrailingStop) (uses : List Use) : TrailingStop :=
  uses.foldl (fun s u => (u.perform s).2) s

theorem run_concat (s : TrailingStop) (uses : List Use) (u : Use) :
    s.run (uses ++ [u]) = (u.perform (s.run uses)).2 := by
  simp [run]

theorem run_append (s : TrailingStop) (uses more : List Use) :
    s.run (uses ++ more) = (s.run uses).run more :=
  List.foldl_append

inductive Performs (s : TrailingStop) : Use → Reply → TrailingStop → Prop where
  | entered {direction price} (flat : s.position = none) (positive : .zero < price) :
      Performs s (.enter direction price) .done
        { s with position := some ⟨direction, price, price⟩ }
  | occupied {direction price p} (open_ : s.position = some p) :
      Performs s (.enter direction price) (.refused (.alreadyOpen p.entry)) s
  | worthless {direction price} (flat : s.position = none) (low : price ≤ .zero) :
      Performs s (.enter direction price) (.refused (.invalidPrice price)) s
  | improved {price p} (open_ : s.position = some p)
      (better : ¬ p.direction.NoWorse price p.extreme) :
      Performs s (.observe price) .done { s with position := some { p with extreme := price } }
  | passed {price p} (open_ : s.position = some p)
      (noBetter : p.direction.NoWorse price p.extreme) : Performs s (.observe price) .done s
  | idle {price} (flat : s.position = none) : Performs s (.observe price) (.refused .notOpen) s
  | checked {price reply} : Performs s (.check price) reply s
  | reset : Performs s .reset .done { s with position := none }

theorem isImprovedBy_iff {p : TrackedPosition} {price : Decimal} :
    TrackedPosition.isImprovedBy p price = true ↔ ¬ p.direction.NoWorse price p.extreme := by
  cases direction : p.direction <;>
    simp [TrackedPosition.isImprovedBy, direction, Direction.NoWorse, Decimal.lt_def,
      Decimal.le_def]

theorem perform_performs (s : TrailingStop) (u : Use) :
    Performs s u (u.perform s).1 (u.perform s).2 := by
  cases u with
  | enter direction price =>
    cases position : s.position with
    | some p =>
      simp only [Use.perform, enter, position, Use.attempt]
      exact .occupied position
    | none =>
      simp only [Use.perform, enter, position]
      split
      case isTrue low => exact .worthless position low
      case isFalse high =>
        refine .entered position ?_
        rw [Decimal.zero_lt_iff]
        exact Int.not_le.mp (mt Decimal.le_zero_iff.mpr high)
  | observe price =>
    cases position : s.position with
    | none =>
      simp only [Use.perform, observe, position, Use.attempt]
      exact .idle position
    | some p =>
      simp only [Use.perform, observe, position]
      split
      case isTrue better => exact .improved position (isImprovedBy_iff.mp better)
      case isFalse worse => exact .passed position (not_not.mp (mt isImprovedBy_iff.mpr worse))
  | check price =>
    simp only [Use.perform]
    split <;> exact .checked
  | reset => exact .reset

theorem performs_of_eq {s t : TrailingStop} {u : Use} {reply : Reply}
    (performed : u.perform s = (reply, t)) : Performs s u reply t := by
  have performs := perform_performs s u
  rwa [performed] at performs

theorem enter_done_iff {s : TrailingStop} {direction : Direction} {price : Decimal} :
    ((Use.enter direction price).perform s).1 = .done ↔ s.position = none ∧ .zero < price := by
  obtain ⟨reply, after, performed⟩ :
      ∃ reply after, (Use.enter direction price).perform s = (reply, after) := ⟨_, _, rfl⟩
  rw [performed]
  cases performs_of_eq performed with
  | entered flat positive => exact iff_of_true rfl ⟨flat, positive⟩
  | occupied open_ => exact iff_of_false (by simp) (by simp [open_])
  | worthless flat low =>
    have notPositive : ¬ Decimal.zero < price := by
      rw [Decimal.zero_lt_iff_value]
      exact not_lt.mpr (Decimal.le_zero_iff_value.mp low)
    exact iff_of_false (by simp) (by simp [notPositive])

theorem Performs.percent {s t : TrailingStop} {u : Use} {reply : Reply}
    (performs : Performs s u reply t) : t.percent = s.percent := by
  cases performs <;> rfl

theorem Performs.unchanged {s t : TrailingStop} {u : Use} {reply : Reply}
    (performs : Performs s u reply t)
    (without : (∃ price, u = .check price) ∨ ∃ e, reply = .refused e) : t = s := by
  cases performs with
  | entered | improved | reset => rcases without with ⟨_, same⟩ | ⟨_, same⟩ <;> cases same
  | occupied | worthless | passed | idle | checked => rfl

theorem run_percent (s : TrailingStop) (uses : List Use) : (s.run uses).percent = s.percent := by
  induction uses using List.reverseRecOn with
  | nil => rfl
  | append_singleton uses u ih =>
    rw [run_concat, (perform_performs _ u).percent, ih]

/-- The last entry that was accepted in some uses, for a position that is still open: nothing since
resets the stop, so that a later entry finds it occupied. -/
def EnteredBy (s : TrailingStop) (uses : List Use) (direction : Direction) (price : Decimal)
    (since : List Use) : Prop :=
  ∃ before, uses = before ++ .enter direction price :: since ∧
    ((Use.enter direction price).perform (s.run before)).1 = .done ∧ .reset ∉ since

namespace EnteredBy
variable {s : TrailingStop} {uses since : List Use} {direction : Direction} {price : Decimal}

theorem concat (entered : s.EnteredBy uses direction price since) {u : Use} (stays : u ≠ .reset) :
    s.EnteredBy (uses ++ [u]) direction price (since ++ [u]) := by
  obtain ⟨before, rfl, accepted, open_⟩ := entered
  exact ⟨before, by simp, accepted, by simp [open_, stays.symm]⟩

theorem positive (entered : s.EnteredBy uses direction price since) : .zero < price := by
  obtain ⟨before, _, accepted, _⟩ := entered
  exact (enter_done_iff.mp accepted).2

end EnteredBy

def observed (uses : List Use) : List Decimal := uses.filterMap Use.observed?

theorem observed_concat (uses : List Use) (u : Use) :
    observed (uses ++ [u]) = observed uses ++ u.observed?.toList := by
  cases seen : u.observed? <;> simp [observed, seen]

/-- An open position was entered by one of the uses, and its extreme is the best price since. -/
theorem best_of_open {s : TrailingStop} (flat : s.position = none) (uses : List Use) :
    ∀ p, (s.run uses).position = some p → ∃ since,
      s.EnteredBy uses p.direction p.entry since ∧
        p.direction.Best (p.entry :: observed since) p.extreme := by
  induction uses using List.reverseRecOn with
  | nil =>
    intro p open_
    rw [show s.run [] = s from rfl, flat] at open_
    cases open_
  | append_singleton uses u ih =>
    intro p open_
    rw [run_concat] at open_
    obtain ⟨reply, after, performed⟩ : ∃ reply after, u.perform (s.run uses) = (reply, after) :=
      ⟨_, _, rfl⟩
    rw [performed] at open_
    -- A use that is no price to follow leaves what the earlier uses came to.
    have unseen : u.observed? = none → u ≠ .reset → (s.run uses).position = some p → ∃ since,
        s.EnteredBy (uses ++ [u]) p.direction p.entry since ∧
          p.direction.Best (p.entry :: observed since) p.extreme := by
      intro nothing stays same
      obtain ⟨since, entered, best⟩ := ih p same
      refine ⟨since ++ [u], entered.concat stays, ?_⟩
      rwa [observed_concat, nothing, Option.toList_none, List.append_nil]
    cases performs_of_eq performed with
    | @entered direction price flat positive =>
      cases open_
      exact ⟨[], ⟨uses, rfl, by rw [performed], List.not_mem_nil⟩, .single direction price⟩
    | occupied => exact unseen rfl nofun open_
    | worthless => exact unseen rfl nofun open_
    | @improved price q before better =>
      cases open_
      obtain ⟨since, entered, best⟩ := ih q before
      refine ⟨_, entered.concat (show Use.observe price ≠ .reset from nofun), ?_⟩
      rw [observed_concat]
      exact best.improve (.of_not better)
    | @passed price q before noBetter =>
      obtain rfl : q = p := Option.some.inj (before.symm.trans open_)
      obtain ⟨since, entered, best⟩ := ih q before
      refine ⟨_, entered.concat (show Use.observe price ≠ .reset from nofun), ?_⟩
      rw [observed_concat]
      exact best.keep noBetter
    | idle flat =>
      rw [flat] at open_
      cases open_
    | checked => exact unseen rfl nofun open_
    | reset => cases open_

end TrailingStop

end FuturesDesk
