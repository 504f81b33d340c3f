import FuturesDesk.Indicator.Pipeline
import FuturesDesk.Proofs.Keyed
import FuturesDesk.Proofs.Strategy.Condition
import Mathlib.Data.List.Chain

/-! When readings are available. An indicator has a value over exactly as many bars as it says it
needs, and there are no bars of candles that are out of order. So a reading in a snapshot speaks for
the candles behind it, and a condition that holds speaks for all that it refers to. -/
namespace FuturesDesk

theorem Ema.length_series {period : Nat} (positive : 0 < period) (values : List Float) :
    (Ema.series period values).length = values.length + 1 - period := by
  simp only [Ema.series]
  split
  case isTrue short =>
    rw [List.length_nil]
    omega
  case isFalse enough =>
    rw [Ema.length_run, List.length_drop]
    omega

namespace Macd
variable {p : MacdParams} {closes : List Float}

theorem length_line (valid : p.IsValid) :
    (line p closes).length = closes.length + 1 - p.slow := by
  have ⟨fast, _, slower⟩ := valid
  rw [line, if_pos valid, List.length_zipWith, List.length_drop, Ema.length_series fast,
    Ema.length_series (Nat.zero_lt_of_lt slower)]
  omega

theorem latest?_isSome_iff (valid : p.IsValid) :
    (latest? p closes).isSome ↔ p.lineLookback ≤ closes.length := by
  have ⟨_, _, slower⟩ := valid
  rw [latest?, List.getLast?_isSome, ← List.length_pos_iff_ne_nil, length_line valid,
    MacdParams.lineLookback]
  omega

theorem signal?_isSome_iff (valid : p.IsValid) :
    (signal? p closes).isSome ↔ p.signalLookback ≤ closes.length := by
  have ⟨_, signal, slower⟩ := valid
  rw [signal?, List.getLast?_isSome, ← List.length_pos_iff_ne_nil, Ema.length_series signal,
    length_line valid, MacdParams.signalLookback]
  omega

theorem histogram?_isSome_iff (valid : p.IsValid) :
    (histogram? p closes).isSome ↔ p.signalLookback ≤ closes.length := by
  rw [← signal?_isSome_iff valid, histogram?]
  cases signaled : signal? p closes with
  | none => cases latest? p closes <;> simp
  | some signal =>
    have enough : p.signalLookback ≤ closes.length := by
      rw [← signal?_isSome_iff valid, signaled]
      rfl
    have line : p.lineLookback ≤ closes.length := by
      have ⟨_, signal, _⟩ := valid
      simp only [MacdParams.signalLookback, MacdParams.lineLookback] at *
      omega
    obtain ⟨macd, found⟩ := Option.isSome_iff_exists.mp ((latest?_isSome_iff valid).mpr line)
    simp [found]

end Macd

theorem Rsi.latest?_isSome_iff {period : Nat} (positive : 0 < period) {prices : List Float} :
    (Rsi.latest? period prices).isSome ↔ period + 1 ≤ prices.length := by
  rw [Rsi.latest?]
  split
  case isTrue short =>
    simp only [Option.isSome_none, Bool.false_eq_true, false_iff]
    omega
  case isFalse enough =>
    simp only [Option.isSome_some, true_iff]
    omega

namespace Indicator

def IsValid : Indicator → Prop
  | macd p _ => p.IsValid
  | rsi period => 0 < period

theorem ofCloses?_isSome_iff {i : Indicator} (valid : i.IsValid) {closes : List Float} :
    (i.ofCloses? closes).isSome ↔ i.minBars ≤ closes.length := by
  cases i with
  | macd p output =>
    cases output with
    | line => exact Macd.latest?_isSome_iff valid
    | signal => exact Macd.signal?_isSome_iff valid
    | histogram => exact Macd.histogram?_isSome_iff valid
  | rsi period => exact Rsi.latest?_isSome_iff valid

theorem isValid_of_standard {i : Indicator} (listed : i ∈ standard) : i.IsValid := by
  have all : ∀ i ∈ standard, i.IsValid := by
    simp [standard, IsValid, MacdParams.IsValid, MacdParams.standard]
  exact all i listed

/-- The names of the indicators tell them apart. -/
theorem eq_of_name {i j : Indicator} (known : i ∈ standard) (other : j ∈ standard)
    (same : i.name = j.name) : i = j := by
  have distinct : ∀ i ∈ standard, ∀ j ∈ standard, i.name = j.name → i = j := by decide
  exact distinct i known j other same

end Indicator

theorem Timestamp.lt_trans {a b c : Timestamp} (first : a < b) (second : b < c) : a < c := by
  simp only [Timestamp.lt_def] at *
  omega

namespace Candle

def ClosesBefore (a b : Candle) : Prop := a.closeTime < b.closeTime

instance : Trans ClosesBefore ClosesBefore ClosesBefore := ⟨Timestamp.lt_trans⟩

def InOrder (candles : List Candle) : Prop := candles.Pairwise ClosesBefore

end Candle

theorem firstOutOfOrder?_eq_none_iff {candles : List Candle} :
    firstOutOfOrder? candles = none ↔ Candle.InOrder candles := by
  rw [Candle.InOrder, ← List.isChain_iff_pairwise]
  fun_induction firstOutOfOrder? candles with
  | case1 a b rest late =>
    have behind : ¬ a.ClosesBefore b := fun early => Timestamp.not_le.mpr early late
    simp [List.isChain_cons_cons, behind]
  | case2 a b rest early ih =>
    have ahead : a.ClosesBefore b := Timestamp.not_le.mp early
    simp [List.isChain_cons_cons, ahead, ih]
  | case3 candles short =>
    match candles with
    | [] => simp
    | [_] => simp
    | a :: b :: rest => exact absurd rfl (short a b rest)

theorem BarSeries.ofCandles_eq_ok_iff {t : Timeframe} {candles : List Candle} {s : BarSeries} :
    BarSeries.ofCandles t candles = .ok s ↔
      Candle.InOrder candles ∧ BarSeries.barsOf t candles = .ok s.bars ∧ s.timeframe = t := by
  rw [← firstOutOfOrder?_eq_none_iff, BarSeries.ofCandles]
  cases firstOutOfOrder? candles with
  | some index => simp
  | none =>
    cases BarSeries.barsOf t candles with
    | error cause => simp
    | ok bars =>
      obtain ⟨timeframe, own⟩ := s
      simp [eq_comm, and_comm]

namespace Indicator

/-- The candles close in order and roll up into as many bars as the indicator needs. -/
structure HasData (i : Indicator) (t : Timeframe) (candles : List Candle) : Prop where
  ordered : Candle.InOrder candles
  enough : ∃ bars, BarSeries.barsOf t candles = .ok bars ∧ i.minBars ≤ bars.length

theorem hasData_of_value {i : Indicator} (valid : i.IsValid) {t : Timeframe} {candles : List Candle}
    {s : BarSeries} {value : Float} (rolled : BarSeries.ofCandles t candles = .ok s)
    (found : i.ofCloses? s.closes = some value) : i.HasData t candles := by
  obtain ⟨ordered, bars, _⟩ := BarSeries.ofCandles_eq_ok_iff.mp rolled
  have enough := (ofCloses?_isSome_iff valid).mp (Option.isSome_of_eq_some found)
  rw [BarSeries.closes, List.length_map] at enough
  exact ⟨ordered, s.bars, bars, enough⟩

end Indicator

namespace Readings

theorem insert_eq_put (name : String) (value : Option Float)
    (values : List (String × Option Float)) :
    insert name value values = Keyed.put name value values := by
  induction values with
  | nil => rfl
  | cons x rest ih =>
    simp only [insert, Keyed.put, ih]
    split
    case isTrue same => rw [same]
    case isFalse => rfl

theorem mem_collected {given values : List (String × Option Float)} {x : String × Option Float}
    (member : x ∈ given.foldl (fun set y => insert y.1 y.2 set) values) :
    x ∈ values ∨ x ∈ given := by
  induction given generalizing values with
  | nil => exact .inl member
  | cons y rest ih =>
    rcases ih member with member | member
    · simp only [insert_eq_put] at member
      rcases Keyed.mem_put member with rfl | member
      · exact .inr List.mem_cons_self
      · exact .inl member
    · exact .inr (List.mem_cons_of_mem _ member)

/-- Every reading is one of those that were given. -/
theorem mem_of_ofList {t : Timeframe} {given : List (String × Option Float)}
    {x : String × Option Float} (member : x ∈ (ofList t given).values) : x ∈ given := by
  have collected : x ∈ ([] : List (String × Option Float)) ∨ x ∈ given := mem_collected member
  simpa using collected

theorem get?_eq (r : Readings) (name : String) :
    r.get? name = (Keyed.find? name r.values).join := by
  rw [get?]
  generalize r.values = values
  induction values with
  | nil => rfl
  | cons x rest ih =>
    rw [List.find?_cons, Keyed.find?]
    by_cases same : x.1 = name
    · simp [same]
    · simp [same, ih]

theorem mem_of_get? {r : Readings} {name : String} {value : Float}
    (found : r.get? name = some value) : (name, some value) ∈ r.values := by
  rw [get?_eq, Option.join_eq_some_iff] at found
  exact Keyed.mem_of_find? found

end Readings

namespace Pipeline
variable {p : Pipeline} {t : Timeframe} {name : String} {value : Float}

def IsUsual (p : Pipeline) : Prop := ∀ i ∈ p.indicators, i ∈ Indicator.standard

theorem standard_isUsual : standard.IsUsual := fun _ => id

theorem ofNames_isUsual {names : List String} (named : ofNames names = .ok p) : p.IsUsual := by
  simp only [ofNames] at named
  split at named
  · cases named
    intro i member
    obtain ⟨name, _, found⟩ := List.mem_filterMap.mp member
    exact List.mem_of_find?_eq_some found
  · cases named

/-- What a reading needs: an indicator of its name, and candles that suffice for it. -/
structure Backs (p : Pipeline) (t : Timeframe) (name : String) (candles : List Candle) : Prop where
  computed : ∃ i ∈ p.indicators, i.name = name
  sufficient : ∀ i ∈ p.indicators, i.name = name → i.HasData t candles

theorem value_of_readingsOf {value? : Indicator → Option Float}
    (found : (p.readingsOf t value?).get? name = some value) :
    ∃ i ∈ p.indicators, i.name = name ∧ value? i = some value := by
  have member := Readings.mem_of_ofList (Readings.mem_of_get? found)
  obtain ⟨i, listed, same⟩ := List.mem_map.mp member
  obtain ⟨rfl, valued⟩ := Prod.mk.inj same
  exact ⟨i, listed, rfl, valued⟩

theorem backs_of_compute (usual : p.IsUsual) {candles : List Candle} {r : Readings}
    (computed : p.compute t candles = .ok r) (found : r.get? name = some value) :
    p.Backs t name candles := by
  simp only [compute] at computed
  split at computed
  case h_1 s rolled =>
    cases computed
    obtain ⟨i, listed, rfl, valued⟩ := value_of_readingsOf found
    refine ⟨⟨i, listed, rfl⟩, ?_⟩
    intro j other same
    obtain rfl := Indicator.eq_of_name (usual j other) (usual i listed) same
    exact Indicator.hasData_of_value (Indicator.isValid_of_standard (usual j other)) rolled valued
  case h_2 =>
    cases computed
    obtain ⟨_, _, _, never⟩ := value_of_readingsOf found
    cases never
  case h_3 => cases computed

/-- A reading of a snapshot has data in the candles of its timeframe. -/
theorem backs_of_snapshot (usual : p.IsUsual) {window : Timeframe → List Candle} {s : Snapshot}
    (read : p.snapshot (window .daily) (window .weekly) = .ok s)
    (found : s.get? t name = some value) : p.Backs t name (window t) := by
  simp only [snapshot] at read
  cases daily : p.compute .daily (window .daily) with
  | error => simp [daily, bind, Except.bind] at read
  | ok d =>
    cases weekly : p.compute .weekly (window .weekly) with
    | error => simp [daily, weekly, bind, Except.bind] at read
    | ok w =>
      rw [daily, weekly] at read
      cases read
      cases t with
      | daily => exact backs_of_compute usual daily found
      | weekly => exact backs_of_compute usual weekly found

end Pipeline

namespace IndicatorComparison

/-- All that a condition refers to, and with that all that it reads, has data in the candles of its
timeframe. -/
def HasData (c : IndicatorComparison) (p : Pipeline) (window : Timeframe → List Candle) : Prop :=
  ∀ r ∈ c.references, p.Backs r.1 r.2 (window r.1)

theorem hasData_of_holds {c : IndicatorComparison} {p : Pipeline} (usual : p.IsUsual)
    {window : Timeframe → List Candle} {s : Snapshot}
    (read : p.snapshot (window .daily) (window .weekly) = .ok s) (holds : c.holds s = true) :
    c.HasData p window := by
  intro r member
  obtain ⟨_, found⟩ := available_of_holds holds r member
  exact Pipeline.backs_of_snapshot usual read found

end IndicatorComparison

end FuturesDesk
