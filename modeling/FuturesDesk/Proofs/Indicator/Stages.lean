import FuturesDesk.Proofs.Decimal.Total
import FuturesDesk.Proofs.Indicator.Summary

/-! Weeks from days. Daily bars that are rolled up once more, as candles, make the weekly bars that
the candles themselves make: every week consists of whole days. -/
namespace FuturesDesk

section
variable {α β : Type} [LinearOrder β] {f : α → β}

theorem argmax_append {l : List α} {top : α} (found : l.argmax f = some top) (m : List α) :
    (l ++ m).argmax f = (top :: m).argmax f := by
  induction m using List.reverseRecOn with
  | nil => simpa using found
  | append_singleton m a ih =>
    rw [← List.append_assoc, ← List.cons_append, List.argmax_concat, List.argmax_concat, ih]

/-- The first of the greatest ones of the parts is the first of the greatest ones of all. -/
theorem argmax_flatten {tops : List α} {parts : List (List α)}
    (each : List.Forall₂ (fun top part => part.argmax f = some top) tops parts) :
    parts.flatten.argmax f = tops.argmax f := by
  induction each with
  | nil => rfl
  | cons found _ ih =>
    rw [List.flatten_cons, argmax_append found, List.argmax_cons, ih, List.argmax_cons]

theorem argmin_flatten {tops : List α} {parts : List (List α)}
    (each : List.Forall₂ (fun top part => part.argmin f = some top) tops parts) :
    parts.flatten.argmin f = tops.argmin f :=
  argmax_flatten (f := OrderDual.toDual ∘ f) each

end

theorem forall₂_trans {α β γ : Type} {P : α → β → Prop} {Q : β → γ → Prop} {R : α → γ → Prop}
    (step : ∀ {a b c}, P a b → Q b c → R a c) {l : List α} {m : List β} {n : List γ}
    (left : List.Forall₂ P l m) (right : List.Forall₂ Q m n) : List.Forall₂ R l n := by
  induction left generalizing n with
  | nil =>
    cases right
    exact .nil
  | cons first _ ih =>
    cases right with
    | cons second rest => exact .cons (step first second) (ih rest)

theorem forall₂_and_right {α β : Type} {R : α → β → Prop} {p : β → Prop} {l : List α} {m : List β}
    (each : List.Forall₂ R l m) (all : ∀ b ∈ m, p b) :
    List.Forall₂ (fun a b => R a b ∧ p b) l m := by
  induction each with
  | nil => exact .nil
  | cons first _ ih =>
    refine .cons ⟨first, all _ List.mem_cons_self⟩ (ih ?_)
    intro b member
    exact all b (List.mem_cons_of_mem _ member)

def Bar.toCandle (b : Bar) (openTime : Timestamp) : Candle :=
  ⟨openTime, b.endTime, b.opening, b.high, b.low, b.closing, b.volume⟩

/-- The bars as candles, each from the time on at which the first candle of its run opens. -/
def BarSeries.restated (s : BarSeries) (candles : List Candle) : List Candle :=
  List.zipWith (fun b run => b.toCandle run.first.openTime) s.bars (s.timeframe.stretches candles)

/-- The candle says of a run what a bar says, and opens with it. -/
structure Candle.Restates (d : Candle) (run : Stretch Candle) : Prop where
  openTime : d.openTime = run.first.openTime
  bar : (Bar.ofCandle d).Summarizes run

structure Bar.Alike (a b : Bar) : Prop where
  endTime : a.endTime = b.endTime
  opening : a.opening = b.opening
  high : a.high = b.high
  low : a.low = b.low
  closing : a.closing = b.closing

theorem Bar.Outlines.alike {a b : Bar} {s : Stretch Candle} (left : a.Outlines s)
    (right : b.Outlines s) : a.Alike b where
  endTime := left.endTime.trans right.endTime.symm
  opening := left.opening.trans right.opening.symm
  high := Option.some.inj (left.high.symm.trans right.high)
  low := Option.some.inj (left.low.symm.trans right.low)
  closing := left.closing.trans right.closing.symm

/-- A bar that outlines restated runs outlines the runs themselves. -/
theorem Bar.Outlines.of_restated {b : Bar} {restated : Stretch Candle}
    {runs : Stretch (Stretch Candle)} (pairs : Stretch.Pairs Candle.Restates restated runs)
    (outlines : b.Outlines restated) : b.Outlines runs.join := by
  refine ⟨?_, ?_, ?_, ?_, ?_⟩
  · rw [outlines.endTime, Stretch.last_join]
    exact pairs.last.bar.endTime
  · exact outlines.opening.trans pairs.first.bar.opening
  · rw [Stretch.map_toList_join, ← outlines.high]
    refine argmax_flatten ?_
    rw [List.forall₂_map_left_iff, List.forall₂_map_right_iff]
    exact pairs.toList.imp fun _ _ restates => restates.bar.high
  · rw [Stretch.map_toList_join, ← outlines.low]
    refine argmin_flatten ?_
    rw [List.forall₂_map_left_iff, List.forall₂_map_right_iff]
    exact pairs.toList.imp fun _ _ restates => restates.bar.low
  · rw [outlines.closing, Stretch.last_join]
    exact pairs.last.bar.closing

/-- No addition of volumes in any day or week is rounded or overflows. -/
def Timeframe.VolumesExact (t : Timeframe) (candles : List Candle) : Prop :=
  ∀ run ∈ t.stretches candles, Decimal.SumsExactly (run.toList.map Candle.volume)

instance (t : Timeframe) (candles : List Candle) : Decidable (t.VolumesExact candles) :=
  inferInstanceAs (Decidable (∀ run ∈ t.stretches candles, _))

theorem Timeframe.VolumesExact.fit {t : Timeframe} {candles : List Candle}
    (exact_ : t.VolumesExact candles) : t.VolumesFit candles := by
  intro run listed
  obtain ⟨total, summed, -⟩ := exact_ run listed _ (List.prefix_refl _)
  exact ⟨total, summed⟩

def Candle.totalVolume (run : Stretch Candle) : ℚ :=
  ((run.toList.map Candle.volume).map Decimal.value).sum

theorem Bar.Summarizes.volume_exact {b : Bar} {run : Stretch Candle} (summarizes : b.Summarizes run)
    (exact_ : Decimal.SumsExactly (run.toList.map Candle.volume)) :
    b.volume.value = Candle.totalVolume run := by
  obtain ⟨total, summed, worth⟩ := exact_ _ (List.prefix_refl _)
  rw [summarizes.volume] at summed
  cases summed
  exact worth

namespace BarSeries
variable {candles : List Candle} {t : Timeframe} {s days weeks staged : BarSeries}

theorem restated_restates (made : ofCandles t candles = .ok s) :
    List.Forall₂ Candle.Restates (s.restated candles) (t.stretches candles) := by
  have reflects := ofCandles_reflects made
  have summarized := reflects.bars
  rw [restated, reflects.timeframe]
  generalize s.bars = bars, t.stretches candles = runs at summarized
  induction summarized with
  | nil => exact .nil
  | cons summarizes _ ih =>
    refine .cons ⟨rfl, ?_⟩ ih
    exact summarizes

theorem restated_inOrder (made : ofCandles t candles = .ok s) :
    Candle.InOrder (s.restated candles) := by
  have outlined : List.Forall₂ Bar.Outlines ((s.restated candles).map Bar.ofCandle)
      (t.stretches candles) := by
    rw [List.forall₂_map_left_iff]
    exact (restated_restates made).imp fun _ _ restates => restates.bar.toOutlines
  obtain ⟨ordered, -⟩ := ofCandles_eq_ok_iff.mp made
  have increasing := ends_increase ordered outlined
  rw [List.pairwise_map] at increasing
  exact increasing

def weeksOfDays (candles : List Candle) : List (Stretch (Stretch Candle)) :=
  Stretch.cut (fun run => Timeframe.weekly.bucket run.first) (Timeframe.daily.stretches candles)

theorem weekly_stretches (candles : List Candle) :
    Timeframe.weekly.stretches candles = (weeksOfDays candles).map Stretch.join :=
  Stretch.cut_coarser _ Timeframe.weekly_bucket_eq candles

/-- Candles that open with the days fall into weeks as the days do. -/
theorem restated_weeks {P : Candle → Stretch Candle → Prop} {restated : List Candle}
    (opens : ∀ {d run}, P d run → d.openTime = run.first.openTime)
    (each : List.Forall₂ P restated (Timeframe.daily.stretches candles)) :
    List.Forall₂ (Stretch.Pairs P) (Timeframe.weekly.stretches restated) (weeksOfDays candles) := by
  refine Stretch.cut_pairs _ ?_ each
  intro d run related
  simp only [Timeframe.bucket, opens related]

theorem staged_outlines (made : ofCandles .daily candles = .ok days)
    (again : ofCandles .weekly (days.restated candles) = .ok staged) :
    List.Forall₂ Bar.Outlines staged.bars (Timeframe.weekly.stretches candles) := by
  have pairs := restated_weeks Candle.Restates.openTime (restated_restates made)
  rw [weekly_stretches, List.forall₂_map_right_iff]
  refine forall₂_trans ?_ (ofCandles_reflects again).bars pairs
  intro b restated runs summarizes pairs
  exact summarizes.toOutlines.of_restated pairs

theorem staged_alike (made : ofCandles .daily candles = .ok days)
    (again : ofCandles .weekly (days.restated candles) = .ok staged)
    (direct : ofCandles .weekly candles = .ok weeks) :
    List.Forall₂ Bar.Alike staged.bars weeks.bars := by
  refine forall₂_trans ?_ (staged_outlines made again) (ofCandles_reflects direct).bars.flip
  intro a run b left right
  exact left.alike right.toOutlines

theorem closes_of_alike (alike : List.Forall₂ Bar.Alike staged.bars weeks.bars) :
    staged.closes = weeks.closes := by
  rw [closes, closes, ← List.forall₂_eq_eq_eq, List.forall₂_map_left_iff, List.forall₂_map_right_iff]
  exact alike.imp fun _ _ same => congrArg Decimal.toFloat same.closing

theorem compute_of_alike (p : Pipeline) {other : List Candle}
    (again : ofCandles t other = .ok staged) (direct : ofCandles t candles = .ok weeks)
    (alike : List.Forall₂ Bar.Alike staged.bars weeks.bars) :
    p.compute t other = p.compute t candles := by
  simp only [Pipeline.compute, again, direct, closes_of_alike alike]

theorem volumes_exact (made : ofCandles t candles = .ok s) (exact_ : t.VolumesExact candles) :
    List.Forall₂ (fun b run => b.volume.value = Candle.totalVolume run) s.bars
      (t.stretches candles) := by
  refine (forall₂_and_right (ofCandles_reflects made).bars exact_).imp ?_
  rintro b run ⟨summarizes, exact_⟩
  exact summarizes.volume_exact exact_

structure Sums (d : Candle) (run : Stretch Candle) : Prop where
  openTime : d.openTime = run.first.openTime
  volume : d.volume.value = Candle.totalVolume run

theorem Sums.totals {week : Stretch Candle} {runs : Stretch (Stretch Candle)}
    (pairs : Stretch.Pairs Sums week runs) :
    List.Forall₂ (fun v part => v.value = (part.map Decimal.value).sum)
      (week.toList.map Candle.volume) (runs.toList.map fun run => run.toList.map Candle.volume) := by
  rw [List.forall₂_map_left_iff, List.forall₂_map_right_iff]
  exact pairs.toList.imp fun _ _ sums => sums.volume

theorem Sums.total {week : Stretch Candle} {runs : Stretch (Stretch Candle)}
    (pairs : Stretch.Pairs Sums week runs) :
    Candle.totalVolume week = Candle.totalVolume runs.join := by
  rw [Candle.totalVolume, Candle.totalVolume, Stretch.map_toList_join]
  exact Decimal.sum_flatten (Sums.totals pairs)

theorem restated_sums (made : ofCandles t candles = .ok s) (exact_ : t.VolumesExact candles) :
    List.Forall₂ Sums (s.restated candles) (t.stretches candles) := by
  refine (forall₂_and_right (restated_restates made) exact_).imp ?_
  rintro d run ⟨restates, exact_⟩
  exact ⟨restates.openTime, restates.bar.volume_exact exact_⟩

/-- What is added up exactly day by day and week by week is added up exactly from the days on. -/
theorem restated_exact (made : ofCandles .daily candles = .ok days)
    (daily : Timeframe.daily.VolumesExact candles) (weekly : Timeframe.weekly.VolumesExact candles) :
    Timeframe.weekly.VolumesExact (days.restated candles) := by
  have pairs := restated_weeks (P := Sums) Sums.openTime (restated_sums made daily)
  rw [Timeframe.VolumesExact, weekly_stretches, List.forall_mem_map] at weekly
  have each : List.Forall₂ (fun week _ => Decimal.SumsExactly (week.toList.map Candle.volume) ∧ True)
      (Timeframe.weekly.stretches (days.restated candles)) (weeksOfDays candles) := by
    refine (forall₂_and_right pairs weekly).imp ?_
    rintro week runs ⟨pairs, exact_⟩
    rw [Stretch.map_toList_join] at exact_
    exact ⟨exact_.of_flatten (Sums.totals pairs), trivial⟩
  exact ((List.forall₂_and_left _ _).mp each).1

theorem staged_volumes (made : ofCandles .daily candles = .ok days)
    (daily : Timeframe.daily.VolumesExact candles) (weekly : Timeframe.weekly.VolumesExact candles)
    (again : ofCandles .weekly (days.restated candles) = .ok staged)
    (direct : ofCandles .weekly candles = .ok weeks) :
    List.Forall₂ (fun a b => a.volume.value = b.volume.value) staged.bars weeks.bars := by
  have own := volumes_exact again (restated_exact made daily weekly)
  have pairs := restated_weeks (P := Sums) Sums.openTime (restated_sums made daily)
  have joined : List.Forall₂ (fun b runs => b.volume.value = Candle.totalVolume runs.join)
      staged.bars (weeksOfDays candles) :=
    forall₂_trans (fun worth pairs => worth.trans (Sums.total pairs)) own pairs
  have whole := volumes_exact direct weekly
  rw [weekly_stretches, List.forall₂_map_right_iff] at whole
  exact forall₂_trans (fun left right => left.trans right.symm) joined whole.flip

theorem restated_onTime (made : ofCandles t candles = .ok s) (i : Nat) :
    ¬ Candle.ClosesLate (s.restated candles) i :=
  inOrder_iff.mp (restated_inOrder made) i

/-- Daily bars are candles in order again. Unless their volumes overflow they make the weeks of the
candles, up to the rounding of volumes, and the same readings. -/
theorem weeks_of_days_agree (made : ofCandles .daily candles = .ok days) :
    (∀ i, ofCandles .weekly (days.restated candles) ≠ .error (.outOfOrder i)) ∧
    (Timeframe.weekly.VolumesFit (days.restated candles) →
      ∃ staged, ofCandles .weekly (days.restated candles) = .ok staged) ∧
    (∀ staged weeks, ofCandles .weekly (days.restated candles) = .ok staged →
      ofCandles .weekly candles = .ok weeks →
      List.Forall₂ Bar.Alike staged.bars weeks.bars ∧
      ∀ p : Pipeline, p.compute .weekly (days.restated candles) = p.compute .weekly candles) ∧
    (Timeframe.daily.VolumesExact candles → Timeframe.weekly.VolumesExact candles →
      ∃ staged weeks, ofCandles .weekly (days.restated candles) = .ok staged ∧
        ofCandles .weekly candles = .ok weeks ∧
        List.Forall₂ (fun a b => a.volume.value = b.volume.value) staged.bars weeks.bars) := by
  have onTime := restated_onTime made
  refine ⟨?_, ?_, ?_, ?_⟩
  · intro i late
    exact onTime i (ofCandles_outOfOrder_iff.mp late).1
  · intro fit
    exact ofCandles_ok_iff.mpr ⟨onTime, fit⟩
  · intro staged weeks again direct
    have alike := staged_alike made again direct
    exact ⟨alike, fun p => compute_of_alike p again direct alike⟩
  · intro daily weekly
    obtain ⟨staged, again⟩ :=
      ofCandles_ok_iff.mpr ⟨onTime, (restated_exact made daily weekly).fit⟩
    obtain ⟨ordered, -⟩ := ofCandles_eq_ok_iff.mp made
    obtain ⟨weeks, direct⟩ := ofCandles_ok_iff.mpr ⟨inOrder_iff.mp ordered, weekly.fit⟩
    exact ⟨staged, weeks, again, direct, staged_volumes made daily weekly again direct⟩

theorem newYear_weeks_of_days : ∃ days staged weeks, ofCandles .daily newYear = .ok days ∧
    days.bars.length = 4 ∧ ofCandles .weekly (days.restated newYear) = .ok staged ∧
    ofCandles .weekly newYear = .ok weeks ∧
    List.Forall₂ Bar.Alike staged.bars weeks.bars ∧
    List.Forall₂ (fun a b => a.volume.value = b.volume.value) staged.bars weeks.bars := by
  have rolled : (ofCandles .daily newYear).toOption.map (·.bars.length) = some 4 := by
    decide +kernel
  obtain ⟨days, found, four⟩ := Option.map_eq_some_iff.mp rolled
  have made : ofCandles .daily newYear = .ok days := by
    cases taken : ofCandles .daily newYear <;> simp_all [Except.toOption]
  obtain ⟨-, -, same, volumes⟩ := weeks_of_days_agree made
  obtain ⟨staged, weeks, again, direct, volumes⟩ :=
    volumes (by decide +kernel) (by decide +kernel)
  exact ⟨days, staged, weeks, made, four, again, direct, (same _ _ again direct).1, volumes⟩

end BarSeries

end FuturesDesk
