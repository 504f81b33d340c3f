import FuturesDesk.Proofs.Indicator.Availability

/-! Averages and their difference bar by bar. Every element of a series belongs to one bar, the
elements of the MACD line join averages of the same bar, and a series over the first closes is the
front of the series over all of them, so that later bars never change an earlier reading. -/
namespace FuturesDesk

/-- The element of a series for the last of some bars, when its first element takes `lookback` of
them. -/
def elementAt? (lookback : Nat) (series : List Float) (bars : Nat) : Option Float :=
  if lookback ≤ bars then series[bars - lookback]? else none

theorem getLast?_take {series : List Float} {lookback bars : Nat}
    (within : bars + 1 - lookback ≤ series.length) :
    (series.take (bars + 1 - lookback)).getLast? = elementAt? lookback series bars := by
  rw [elementAt?, List.getLast?_eq_getElem?, List.length_take, Nat.min_eq_left within]
  split
  case isTrue enough =>
    rw [List.getElem?_take_of_lt (by omega)]
    congr 1
    omega
  case isFalse short =>
    have none_ : bars + 1 - lookback = 0 := by omega
    simp [none_]

namespace Ema
variable {period i k bar : Nat} {w a average : Float} {values : List Float}

/-- The average at a bar, where bars are counted from zero. The bar that completes the period has
the plain average; at each bar after it the average moves towards the value of that bar by two parts
in `period + 1`. -/
inductive AtBar (period : Nat) (values : List Float) : Nat → Float → Prop where
  | seed (positive : 0 < period) (enough : period ≤ values.length) :
      AtBar period values (period - 1)
        ((values.take period).foldl (· + ·) (-0.0) / Binary64.ofNat period)
  | next {bar : Nat} {average value : Float} (before : AtBar period values bar average)
      (found : values[bar + 1]? = some value) :
      AtBar period values (bar + 1)
        ((value - average) * (2.0 / (Binary64.ofNat period + 1.0)) + average)

theorem getElem?_run_zero : (run w a values)[0]? = some a := by
  cases values <;> rfl

/-- Each average comes from the one before it and its own value. -/
theorem getElem?_run_succ : (run w a values)[i + 1]? = some average ↔
    ∃ before value, (run w a values)[i]? = some before ∧ values[i]? = some value ∧
      next w before value = average := by
  induction values generalizing a i with
  | nil => simp [run]
  | cons value rest ih =>
    rw [run, List.getElem?_cons_succ]
    cases i with
    | zero => simp [getElem?_run_zero]
    | succ i => simp [ih]

theorem run_take (w a : Float) (values : List Float) (k : Nat) :
    run w a (values.take k) = (run w a values).take (k + 1) := by
  induction values generalizing a k with
  | nil => simp [run]
  | cons value rest ih =>
    cases k with
    | zero => simp [run]
    | succ k => simp [run, ih]

theorem series_of_enough (positive : 0 < period) (enough : period ≤ values.length) :
    series period values = run (weight period) (seed period values) (values.drop period) := by
  rw [series, if_neg (by omega)]

/-- The averages of the first values are the first averages. -/
theorem series_take (period : Nat) (within : k ≤ values.length) :
    series period (values.take k) = (series period values).take (k + 1 - period) := by
  have length : (values.take k).length = k := List.length_take_of_le within
  rcases Nat.eq_zero_or_pos period with rfl | positive
  · simp [series]
  · by_cases short : k < period
    · rw [series, if_pos (by omega), Nat.sub_eq_zero_of_le (by omega), List.take_zero]
    · have front : (values.take k).take period = values.take period := by
        rw [List.take_take, Nat.min_eq_left (by omega)]
      have places : k + 1 - period = k - period + 1 := by omega
      rw [series_of_enough positive (by omega), series_of_enough positive (by omega), places,
        ← run_take, List.drop_take, seed, seed, front]

theorem atBar_of_getElem? (positive : 0 < period)
    (found : (series period values)[i]? = some average) :
    AtBar period values (period - 1 + i) average := by
  have enough : period ≤ values.length := by
    have inside := (List.getElem?_eq_some_iff.mp found).1
    rw [length_series positive] at inside
    omega
  rw [series_of_enough positive enough] at found
  induction i generalizing average with
  | zero =>
    obtain rfl : seed period values = average := by simpa [getElem?_run_zero] using found
    exact .seed positive enough
  | succ i ih =>
    obtain ⟨before, value, earlier, own, rfl⟩ := getElem?_run_succ.mp found
    have place : period + i = period - 1 + i + 1 := by omega
    rw [List.getElem?_drop, place] at own
    exact .next (ih earlier) own

theorem AtBar.getElem? (held : AtBar period values bar average) :
    ∃ i, period - 1 + i = bar ∧ 0 < period ∧ period ≤ values.length ∧
      (series period values)[i]? = some average := by
  induction held with
  | seed positive enough =>
    refine ⟨0, rfl, positive, enough, ?_⟩
    rw [series_of_enough positive enough]
    exact getElem?_run_zero
  | next before own ih =>
    obtain ⟨i, rfl, positive, enough, found⟩ := ih
    rw [series_of_enough positive enough] at found ⊢
    have place : period + i = period - 1 + i + 1 := by omega
    rw [← place, ← List.getElem?_drop] at own
    exact ⟨i + 1, rfl, positive, enough, getElem?_run_succ.mpr ⟨_, _, found, own, rfl⟩⟩

/-- The elements of a series are the averages at the bars from number `period` on. -/
theorem getElem?_series_iff (positive : 0 < period) :
    (series period values)[i]? = some average ↔ AtBar period values (period - 1 + i) average := by
  constructor
  · exact atBar_of_getElem? positive
  · intro held
    obtain ⟨j, same, _, _, found⟩ := held.getElem?
    obtain rfl : j = i := by omega
    exact found

end Ema

namespace Macd
variable {p : MacdParams} {closes : List Float} {i k : Nat} {difference : Float}

/-- An element of the line is the difference of the two averages at one and the same bar. -/
theorem getElem?_line_iff (valid : p.IsValid) :
    (line p closes)[i]? = some difference ↔
      ∃ slow fast, Ema.AtBar p.slow closes (p.slow - 1 + i) slow ∧
        Ema.AtBar p.fast closes (p.slow - 1 + i) fast ∧ fast - slow = difference := by
  have ⟨fast, _, slower⟩ := valid
  have place : p.fast - 1 + (p.slow - p.fast + i) = p.slow - 1 + i := by omega
  rw [line, if_pos valid, List.getElem?_zipWith_eq_some]
  simp only [List.getElem?_drop, Ema.getElem?_series_iff fast,
    Ema.getElem?_series_iff (Nat.zero_lt_of_lt slower), place]

/-- The line over the first closes is the front of the line over all of them. -/
theorem line_take (valid : p.IsValid) (within : k ≤ closes.length) :
    line p (closes.take k) = (line p closes).take (k + 1 - p.slow) := by
  have ⟨_, _, slower⟩ := valid
  have places : k + 1 - p.fast - (p.slow - p.fast) = k + 1 - p.slow := by omega
  rw [line, line, if_pos valid, if_pos valid, Ema.series_take p.slow within,
    Ema.series_take p.fast within, List.drop_take, places, List.take_zipWith]

theorem latest?_take (valid : p.IsValid) (within : k ≤ closes.length) :
    latest? p (closes.take k) = elementAt? p.lineLookback (line p closes) k := by
  have ⟨_, _, slower⟩ := valid
  rw [latest?, line_take valid within, MacdParams.lineLookback]
  refine getLast?_take ?_
  rw [length_line valid]
  omega

theorem signal?_take (valid : p.IsValid) (within : k ≤ closes.length) :
    signal? p (closes.take k) =
      elementAt? p.signalLookback (Ema.series p.signal (line p closes)) k := by
  have ⟨_, signal, slower⟩ := valid
  have length : (line p closes).length = closes.length + 1 - p.slow := length_line valid
  have places : k + 1 - p.slow + 1 - p.signal = k + 1 - p.signalLookback := by
    rw [MacdParams.signalLookback]
    omega
  rw [signal?, line_take valid within, Ema.series_take p.signal (by omega), places]
  refine getLast?_take ?_
  rw [Ema.length_series signal, length, MacdParams.signalLookback]
  omega

/-- The line has one element for each bar from number `slow` on, and takes both averages at that
bar. What averages, line and signal were after the first closes is what they are there once more
closes have come. -/
theorem readings_keep_their_bars (valid : p.IsValid) (closes : List Float) :
    (line p closes).length = closes.length + 1 - p.slow ∧
    (∀ i difference, (line p closes)[i]? = some difference ↔
      ∃ slow fast, Ema.AtBar p.slow closes (p.slow - 1 + i) slow ∧
        Ema.AtBar p.fast closes (p.slow - 1 + i) fast ∧ fast - slow = difference) ∧
    (∀ period values, 0 < period → ∀ i average,
      (Ema.series period values)[i]? = some average ↔
        Ema.AtBar period values (period - 1 + i) average) ∧
    ∀ k ≤ closes.length,
      (∀ period, Ema.series period (closes.take k) =
        (Ema.series period closes).take (k + 1 - period)) ∧
      line p (closes.take k) = (line p closes).take (k + 1 - p.slow) ∧
      latest? p (closes.take k) = elementAt? p.lineLookback (line p closes) k ∧
      signal? p (closes.take k) =
        elementAt? p.signalLookback (Ema.series p.signal (line p closes)) k := by
  refine ⟨length_line valid, ?_, ?_, ?_⟩
  · intro i difference
    exact getElem?_line_iff valid
  · intro period values positive i average
    exact Ema.getElem?_series_iff positive
  · intro k within
    exact ⟨fun period => Ema.series_take period within, line_take valid within,
      latest?_take valid within, signal?_take valid within⟩

def doubling : List Float := [1.0, 2.0, 4.0, 8.0, 16.0]

def twoAndThree : MacdParams := ⟨2, 3, 2⟩

/-- The line begins with the third bar, where the fast average has moved once, and the signal with
the fourth. The fifth bar changes nothing about either. -/
theorem doubling_keeps_bars :
    twoAndThree.IsValid ∧ (line twoAndThree doubling).length = 3 ∧
      latest? twoAndThree (doubling.take 3) = (line twoAndThree doubling)[0]? ∧
      signal? twoAndThree (doubling.take 3) = none ∧
      signal? twoAndThree (doubling.take 4) =
        (Ema.series 2 (line twoAndThree doubling))[0]? ∧
      ∃ slow fast, Ema.AtBar 3 doubling 2 slow ∧ Ema.AtBar 2 doubling 2 fast ∧
        latest? twoAndThree (doubling.take 3) = some (fast - slow) := by
  have valid : twoAndThree.IsValid := by decide
  obtain ⟨length, elements, _, fronts⟩ := readings_keep_their_bars valid doubling
  obtain ⟨_, _, latest, early⟩ := fronts 3 (by decide)
  obtain ⟨_, _, _, signal⟩ := fronts 4 (by decide)
  have first : latest? twoAndThree (doubling.take 3) = (line twoAndThree doubling)[0]? := latest
  obtain ⟨difference, found⟩ : ∃ difference, (line twoAndThree doubling)[0]? = some difference :=
    ⟨_, List.getElem?_eq_getElem (by rw [length]; decide)⟩
  obtain ⟨slow, fast, slowAt, fastAt, rfl⟩ := (elements 0 difference).mp found
  exact ⟨valid, length, first, early, signal, slow, fast, slowAt, fastAt, first.trans found⟩

end Macd

end FuturesDesk
