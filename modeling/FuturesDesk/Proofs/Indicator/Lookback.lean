import FuturesDesk.Proofs.Indicator.Summary

/-! Readings against lookbacks. An indicator has a value once the candles make as many bars as it
looks back on, and every reading is there, with a value or without one, under its own name. -/
namespace FuturesDesk

namespace Readings
variable {values : List (String × Option Float)}

/-- Names come once each, and are the names that were there or were given. -/
theorem names_collected (given : List (String × Option Float))
    (once : (values.map Prod.fst).Nodup) :
    ((given.foldl (fun set y => insert y.1 y.2 set) values).map Prod.fst).Nodup ∧
      ∀ name, name ∈ (given.foldl (fun set y => insert y.1 y.2 set) values).map Prod.fst ↔
        name ∈ values.map Prod.fst ∨ name ∈ given.map Prod.fst := by
  induction given generalizing values with
  | nil => exact ⟨once, by simp⟩
  | cons y rest ih =>
    have next : ((Keyed.put y.1 y.2 values).map Prod.fst).Nodup := Keyed.nodup_put once
    simp only [List.foldl_cons, insert_eq_put] at ih ⊢
    obtain ⟨distinct, same⟩ := ih next
    refine ⟨distinct, ?_⟩
    intro name
    rw [same, Keyed.keys_put, List.map_cons, List.mem_cons]
    split
    case isTrue known =>
      constructor
      · exact Or.imp_right .inr
      · rintro (old | rfl | new)
        · exact .inl old
        · exact .inl known
        · exact .inr new
    case isFalse =>
      rw [List.mem_append, List.mem_singleton, or_assoc]

theorem names_ofList (t : Timeframe) (given : List (String × Option Float)) :
    (ofList t given).names.Nodup ∧
      ∀ name, name ∈ (ofList t given).names ↔ name ∈ given.map Prod.fst := by
  have once : (([] : List (String × Option Float)).map Prod.fst).Nodup := List.nodup_nil
  obtain ⟨distinct, same⟩ := names_collected given once
  simp only [List.map_nil, List.not_mem_nil, false_or] at same
  exact ⟨distinct, same⟩

end Readings

namespace Pipeline
variable {p : Pipeline} {t : Timeframe} {value? : Indicator → Option Float}

theorem nodup_readingsOf : (p.readingsOf t value?).names.Nodup :=
  (Readings.names_ofList _ _).1

theorem mem_names_readingsOf {name : String} :
    name ∈ (p.readingsOf t value?).names ↔ name ∈ p.names := by
  rw [readingsOf, (Readings.names_ofList _ _).2, List.map_map]
  exact Iff.rfl

/-- The reading of a name is that of its indicator. -/
theorem get?_readingsOf (usual : p.IsUsual) {i : Indicator} (listed : i ∈ p.indicators) :
    (p.readingsOf t value?).get? i.name = value? i := by
  have named : i.name ∈ (p.readingsOf t value?).names :=
    mem_names_readingsOf.mpr (List.mem_map_of_mem listed)
  obtain ⟨⟨name, value⟩, member, same⟩ := List.mem_map.mp named
  obtain rfl : name = i.name := same
  rw [Readings.get?_eq, (Keyed.find?_eq_some_iff nodup_readingsOf).mpr member]
  obtain ⟨j, other, same⟩ := List.mem_map.mp (Readings.mem_of_ofList member)
  obtain ⟨alike, rfl⟩ := Prod.mk.inj same
  rw [Indicator.eq_of_name (usual j other) (usual i listed) alike]
  rfl

theorem minBars_le_maxLookback {i : Indicator} (listed : i ∈ p.indicators) :
    i.minBars ≤ p.maxLookback := by
  have member : i.minBars ∈ p.indicators.map Indicator.minBars := List.mem_map_of_mem listed
  have most : p.maxLookback = max 0 ((p.indicators.map Indicator.minBars).max _) :=
    List.foldl_max_eq_max (List.ne_nil_of_mem member)
  rw [most]
  exact Nat.le_trans (List.le_max_of_mem member) (Nat.le_max_right _ _)

/-- Candles without overflow give a reading of every indicator, which has a value just where there is
data for it. -/
theorem compute_of_fit (p : Pipeline) {candles : List Candle}
    (fit : Candle.InOrder candles → t.VolumesFit candles) :
    ∃ value? : Indicator → Option Float,
      p.compute t candles = .ok (p.readingsOf t value?) ∧
      ∀ i : Indicator, i.ofCandles? t candles = .ok (value? i) ∧
        (i.IsValid → ((value? i).isSome ↔ i.HasData t candles)) := by
  by_cases ordered : Candle.InOrder candles
  · obtain ⟨bars, made⟩ := BarSeries.volumesFit_iff.mpr (fit ordered)
    have rolled : BarSeries.ofCandles t candles = .ok ⟨t, bars⟩ :=
      BarSeries.ofCandles_eq_ok_iff.mpr ⟨ordered, made, rfl⟩
    refine ⟨fun i => i.ofCloses? (BarSeries.closes ⟨t, bars⟩), ?_, ?_⟩
    · simp only [compute, rolled]
    · intro i
      refine ⟨by simp only [Indicator.ofCandles?, rolled], ?_⟩
      intro valid
      rw [Indicator.ofCloses?_isSome_iff valid, BarSeries.closes, List.length_map]
      constructor
      · intro enough
        exact ⟨ordered, bars, made, enough⟩
      · rintro ⟨-, others, again, enough⟩
        cases made.symm.trans again
        exact enough
  · have late : ∃ index, firstOutOfOrder? candles = some index := by
      rw [← Option.ne_none_iff_exists']
      exact mt firstOutOfOrder?_eq_none_iff.mp ordered
    obtain ⟨index, late⟩ := late
    have refused : BarSeries.ofCandles t candles = .error (.outOfOrder index) := by
      simp only [BarSeries.ofCandles, late]
    refine ⟨fun _ => none, ?_, ?_⟩
    · simp only [compute, refused]
    · intro i
      refine ⟨by simp only [Indicator.ofCandles?, refused], ?_⟩
      intro _
      constructor
      · intro present
        cases present
      · intro data
        exact absurd data.ordered ordered

/-- The readings have the names of the pipeline, and values as its lookbacks say. -/
structure Reads (p : Pipeline) (t : Timeframe) (candles : List Candle) (r : Readings) : Prop where
  timeframe : r.timeframe = t
  distinct : r.names.Nodup
  names : ∀ name, name ∈ r.names ↔ name ∈ p.names
  available : ∀ i ∈ p.indicators, (r.get? i.name).isSome ↔ i.HasData t candles
  enough : Candle.InOrder candles →
    (∃ bars, BarSeries.barsOf t candles = .ok bars ∧ p.maxLookback ≤ bars.length) →
    ∀ name ∈ p.names, (r.get? name).isSome

theorem compute_reads (usual : p.IsUsual) {candles : List Candle}
    (fit : Candle.InOrder candles → t.VolumesFit candles) :
    ∃ r, p.compute t candles = .ok r ∧ p.Reads t candles r := by
  obtain ⟨value?, computed, values⟩ := p.compute_of_fit fit
  have available : ∀ i ∈ p.indicators,
      ((p.readingsOf t value?).get? i.name).isSome ↔ i.HasData t candles := by
    intro i listed
    rw [get?_readingsOf usual listed]
    exact (values i).2 (Indicator.isValid_of_standard (usual i listed))
  refine ⟨_, computed, ⟨rfl, nodup_readingsOf, fun name => mem_names_readingsOf, available, ?_⟩⟩
  rintro ordered ⟨bars, made, enough⟩ name named
  obtain ⟨i, listed, rfl⟩ := List.mem_map.mp named
  exact (available i listed).mpr
    ⟨ordered, bars, made, Nat.le_trans (minBars_le_maxLookback listed) enough⟩

/-- Values and lookbacks agree: over candles without overflow an indicator has a value just where
there are as many bars as it says it needs, and a snapshot has every name of its pipeline. -/
theorem values_match_lookbacks :
    (∀ p : MacdParams, (Indicator.macd p .line).minBars = p.slow ∧
      (Indicator.macd p .signal).minBars = p.slow + p.signal - 1 ∧
      (Indicator.macd p .histogram).minBars = p.slow + p.signal - 1) ∧
    (∀ period, (Indicator.rsi period).minBars = period + 1) ∧
    (∀ i : Indicator, i.IsValid → ∀ (t : Timeframe) candles,
      (Candle.InOrder candles → t.VolumesFit candles) →
      ∃ value?, i.ofCandles? t candles = .ok value? ∧ (value?.isSome ↔ i.HasData t candles)) ∧
    ∀ p : Pipeline, (p = standard ∨ ∃ names, ofNames names = .ok p) →
      ∀ window : Timeframe → List Candle,
        (∀ t : Timeframe, Candle.InOrder (window t) → t.VolumesFit (window t)) →
        ∃ s, p.snapshot (window .daily) (window .weekly) = .ok s ∧
          ∀ t, p.Reads t (window t) (s.readings t) := by
  refine ⟨?_, ?_, ?_, ?_⟩
  · intro p
    exact ⟨rfl, rfl, rfl⟩
  · intro period
    rfl
  · intro i valid t candles fit
    obtain ⟨value?, -, values⟩ := standard.compute_of_fit fit
    exact ⟨value? i, (values i).1, (values i).2 valid⟩
  · intro p offered window fit
    have usual : p.IsUsual := by
      rcases offered with rfl | ⟨names, named⟩
      · exact standard_isUsual
      · exact ofNames_isUsual named
    obtain ⟨daily, days, ofDays⟩ := compute_reads usual (fit .daily)
    obtain ⟨weekly, weeks, ofWeeks⟩ := compute_reads usual (fit .weekly)
    refine ⟨⟨daily, weekly⟩, by simp only [snapshot, days, weeks]; rfl, ?_⟩
    intro t
    cases t with
    | daily => exact ofDays
    | weekly => exact ofWeeks

/-- Four days are just enough for three price changes, and three weeks are not. -/
theorem newYear_lookbacks :
    (∃ value, (Indicator.rsi 3).ofCandles? .daily BarSeries.newYear = .ok (some value)) ∧
    (Indicator.rsi 3).ofCandles? .weekly BarSeries.newYear = .ok none ∧
    ∃ s, standard.snapshot BarSeries.newYear BarSeries.newYear = .ok s ∧
      ∀ t, standard.Reads t BarSeries.newYear (s.readings t) := by
  have fit : ∀ t : Timeframe, t.VolumesFit BarSeries.newYear := by
    intro t
    cases t <;> decide +kernel
  have ordered := firstOutOfOrder?_eq_none_iff.mp
    (by decide : firstOutOfOrder? BarSeries.newYear = none)
  obtain ⟨-, -, values, snapshots⟩ := values_match_lookbacks
  refine ⟨?_, ?_, snapshots standard (.inl rfl) (fun _ => BarSeries.newYear) fun t _ => fit t⟩
  · obtain ⟨value?, computed, available⟩ :=
      values (.rsi 3) (Nat.succ_pos 2) .daily _ fun _ => fit .daily
    have days : (BarSeries.barsOf .daily BarSeries.newYear).toOption.map List.length = some 4 := by
      decide +kernel
    obtain ⟨bars, made⟩ := BarSeries.volumesFit_iff.mpr (fit .daily)
    rw [made] at days
    have enough : 4 ≤ bars.length := Nat.le_of_eq (Option.some.inj days).symm
    obtain ⟨value, rfl⟩ := Option.isSome_iff_exists.mp (available.mpr ⟨ordered, bars, made, enough⟩)
    exact ⟨value, computed⟩
  · obtain ⟨value?, computed, available⟩ :=
      values (.rsi 3) (Nat.succ_pos 2) .weekly _ fun _ => fit .weekly
    have weeks : (BarSeries.barsOf .weekly BarSeries.newYear).toOption.map List.length = some 3 := by
      decide +kernel
    cases value? with
    | none => exact computed
    | some value =>
      obtain ⟨-, bars, made, enough⟩ := available.mp rfl
      rw [made] at weeks
      have short : bars.length = 3 := Option.some.inj weeks
      exact absurd (short ▸ enough) (by decide)

end Pipeline

end FuturesDesk
