import FuturesDesk.Proofs.Decimal.Value
import FuturesDesk.Proofs.Indicator.Availability
import FuturesDesk.Proofs.Indicator.Span
import FuturesDesk.Proofs.Result
import Mathlib.Data.List.MinMax
import Mathlib.Data.List.Nodup
import Mathlib.Order.Bounds.Basic

/-! What bars say of candles. Each bar is the summary of one longest run of neighbours from the same
day or week, and the first candle that closes too early is the one that is named. -/
namespace FuturesDesk

/-- The candle at an index closes at or before the one in front of it. -/
def Candle.ClosesLate (candles : List Candle) (index : Nat) : Prop :=
  ∃ n a b, index = n + 1 ∧ candles[n]? = some a ∧ candles[n + 1]? = some b ∧
    b.closeTime ≤ a.closeTime

section
open Candle
variable {a b : Candle} {candles rest : List Candle} {index : Nat}

theorem closesLate_cons_cons : ClosesLate (a :: b :: rest) index ↔
    (index = 1 ∧ b.closeTime ≤ a.closeTime) ∨ ∃ n, index = n + 1 ∧ ClosesLate (b :: rest) n := by
  constructor
  · rintro ⟨n, x, y, rfl, left, right, late⟩
    cases n with
    | zero =>
      cases left
      cases right
      exact .inl ⟨rfl, late⟩
    | succ n => exact .inr ⟨n + 1, rfl, n, x, y, rfl, left, right, late⟩
  · rintro (⟨rfl, late⟩ | ⟨_, rfl, n, x, y, rfl, left, right, late⟩)
    · exact ⟨0, a, b, rfl, rfl, rfl, late⟩
    · exact ⟨n + 1, x, y, rfl, left, right, late⟩

theorem firstOutOfOrder?_isLeast (found : firstOutOfOrder? candles = some index) :
    IsLeast {i | ClosesLate candles i} index := by
  fun_induction firstOutOfOrder? candles generalizing index with
  | case1 a b rest late =>
    cases found
    refine ⟨closesLate_cons_cons.mpr (.inl ⟨rfl, late⟩), ?_⟩
    rintro _ ⟨n, -, -, rfl, -⟩
    exact Nat.le_add_left 1 n
  | case2 a b rest early ih =>
    obtain ⟨later, behind, rfl⟩ := Option.map_eq_some_iff.mp found
    obtain ⟨late, least⟩ := ih behind
    refine ⟨closesLate_cons_cons.mpr (.inr ⟨later, rfl, late⟩), ?_⟩
    intro i other
    rcases closesLate_cons_cons.mp other with ⟨_, atOnce⟩ | ⟨n, rfl, behind⟩
    · exact absurd atOnce early
    · exact Nat.succ_le_succ (least behind)
  | case3 => cases found

theorem inOrder_iff : InOrder candles ↔ ∀ i, ¬ ClosesLate candles i := by
  rw [← firstOutOfOrder?_eq_none_iff]
  constructor
  · intro none_ i ⟨n, a, b, same, left, right, late⟩
    have ordered := List.isChain_iff_getElem.mp
      (firstOutOfOrder?_eq_none_iff.mp none_ : candles.Pairwise ClosesBefore).isChain
    obtain ⟨inside, rfl⟩ := List.getElem?_eq_some_iff.mp right
    obtain ⟨_, rfl⟩ := List.getElem?_eq_some_iff.mp left
    exact Timestamp.not_le.mpr (ordered n inside) late
  · intro onTime
    cases found : firstOutOfOrder? candles with
    | none => rfl
    | some index => exact absurd (firstOutOfOrder?_isLeast found).1 (onTime index)

theorem firstOutOfOrder?_eq_some_iff :
    firstOutOfOrder? candles = some index ↔ IsLeast {i | ClosesLate candles i} index := by
  constructor
  · exact firstOutOfOrder?_isLeast
  · intro least
    cases found : firstOutOfOrder? candles with
    | none =>
      have onTime := inOrder_iff.mp (firstOutOfOrder?_eq_none_iff.mp found)
      exact absurd least.1 (onTime index)
    | some other => rw [(firstOutOfOrder?_isLeast found).unique least]

end

namespace Bar

def ofStretch (s : Stretch Candle) : Except Decimal.Fault Bar :=
  s.rest.foldlM extend (ofCandle s.first)

/-- The times and the prices of the stretch; of highs or lows that are equal, the first one. -/
structure Outlines (b : Bar) (s : Stretch Candle) : Prop where
  endTime : b.endTime = s.last.closeTime
  opening : b.opening = s.first.opening
  high : (s.toList.map Candle.high).argmax Decimal.value = some b.high
  low : (s.toList.map Candle.low).argmin Decimal.value = some b.low
  closing : b.closing = s.last.closing

structure Summarizes (b : Bar) (s : Stretch Candle) : Prop extends Outlines b s where
  volume : Decimal.sum (s.toList.map Candle.volume) = .ok b.volume

variable {b : Bar} {s : Stretch Candle}

theorem ofStretch_push (s : Stretch Candle) (c : Candle) :
    ofStretch (s.push c) = ofStretch s >>= fun b => b.extend c := by
  simp [ofStretch, Stretch.push, List.foldlM_append]

/-- The volumes of a stretch are added up one by one. -/
theorem volume_ofStretch (s : Stretch Candle) :
    volume <$> ofStretch s = Decimal.sum (s.toList.map Candle.volume) := by
  induction s using Stretch.push_induction with
  | one c => rfl
  | push s c ih =>
    rw [ofStretch_push, Stretch.toList_push, List.map_append, Decimal.sum, List.foldlM_append,
      ← Decimal.sum, ← ih]
    cases ofStretch s with
    | error cause => rfl
    | ok b =>
      cases added : b.volume.add c.volume with
      | error cause => simp [bind, Except.bind, extend, added]
      | ok total => simp [bind, Except.bind, extend, added, pure, Except.pure]

theorem ofStretch_outlines (made : ofStretch s = .ok b) : b.Outlines s := by
  induction s using Stretch.push_induction generalizing b with
  | one c =>
    cases made
    exact ⟨rfl, rfl, rfl, rfl, rfl⟩
  | push s c ih =>
    rw [ofStretch_push, bind_ok] at made
    obtain ⟨before, made, extended⟩ := made
    simp only [extend, bind_ok, pure_ok] at extended
    obtain ⟨total, -, rfl⟩ := extended
    obtain ⟨-, opening, high, low, -⟩ := ih made
    refine ⟨?_, opening, ?_, ?_, ?_⟩
    · simp
    · rw [Stretch.toList_push, List.map_append, List.map_singleton, List.argmax_concat, high]
      simp only [Decimal.max, Decimal.lt_iff_value]
      split <;> rfl
    · rw [Stretch.toList_push, List.map_append, List.map_singleton, List.argmin_concat, low]
      simp only [Decimal.min, Decimal.lt_iff_value]
      split <;> rfl
    · simp

theorem ofStretch_summarizes (made : ofStretch s = .ok b) : b.Summarizes s where
  toOutlines := ofStretch_outlines made
  volume := by
    rw [← volume_ofStretch, made]
    rfl

theorem ofStretch_ok_iff : (∃ b, ofStretch s = .ok b) ↔
    ∃ total, Decimal.sum (s.toList.map Candle.volume) = .ok total := by
  rw [← volume_ofStretch]
  cases ofStretch s with
  | error cause => simp
  | ok b => simp

end Bar

def Timeframe.VolumesFit (t : Timeframe) (candles : List Candle) : Prop :=
  ∀ s ∈ t.stretches candles, ∃ total, Decimal.sum (s.toList.map Candle.volume) = .ok total

instance (t : Timeframe) (candles : List Candle) : Decidable (t.VolumesFit candles) :=
  decidable_of_iff
    (∀ s ∈ t.stretches candles, (Decimal.sum (s.toList.map Candle.volume)).toOption.isSome)
    (forall₂_congr fun s _ => by
      cases Decimal.sum (s.toList.map Candle.volume) <;> simp [Except.toOption])

namespace BarSeries
variable {t : Timeframe} {candles : List Candle} {bars : List Bar}

/-- The bar under way takes what is left of its stretch; each later stretch has a bar of its own. -/
theorem rollUp_cut {c : Candle} {rest left : List Candle} {others : List (Stretch Candle)}
    (cutting : Stretch.cut t.bucket (c :: rest) = ⟨c, left⟩ :: others) (bar : Bar) :
    rollUp t (t.bucket c) bar rest = do
      return (← left.foldlM Bar.extend bar) :: (← others.mapM Bar.ofStretch) := by
  induction rest generalizing c bar left others with
  | nil =>
    cases cutting
    rfl
  | cons d rest ih =>
    obtain ⟨next, later, cut⟩ := Stretch.exists_cut t.bucket d rest
    rw [Stretch.cut_cons t.bucket cut] at cutting
    by_cases same : t.bucket d = t.bucket c
    · rw [if_pos same.symm] at cutting
      cases cutting
      simp only [rollUp, ← same, if_true, ih cut, Stretch.toList, List.foldlM_cons, bind_assoc]
    · rw [if_neg (Ne.symm same)] at cutting
      cases cutting
      simp only [rollUp, if_neg same, ih cut, List.foldlM_nil, List.mapM_cons, Bar.ofStretch,
        pure_bind, bind_assoc]

theorem barsOf_eq (t : Timeframe) (candles : List Candle) :
    barsOf t candles = (t.stretches candles).mapM Bar.ofStretch := by
  cases candles with
  | nil => rfl
  | cons c rest =>
    obtain ⟨left, others, cutting⟩ := Stretch.exists_cut t.bucket c rest
    rw [barsOf, rollUp_cut cutting, Timeframe.stretches, cutting, List.mapM_cons, Bar.ofStretch]

theorem barsOf_ok_iff : barsOf t candles = .ok bars ↔
    List.Forall₂ (fun s b => Bar.ofStretch s = .ok b) (t.stretches candles) bars := by
  rw [barsOf_eq, mapM_ok]

theorem volumesFit_iff : (∃ bars, barsOf t candles = .ok bars) ↔ t.VolumesFit candles := by
  rw [barsOf_eq, mapM_completes]
  simp only [Timeframe.VolumesFit, Bar.ofStretch_ok_iff]

theorem ofCandles_outOfOrder_iff {index : Nat} :
    ofCandles t candles = .error (.outOfOrder index) ↔
      IsLeast {i | Candle.ClosesLate candles i} index := by
  rw [← firstOutOfOrder?_eq_some_iff, ofCandles]
  cases firstOutOfOrder? candles with
  | some other => simp
  | none => cases barsOf t candles <;> simp

theorem ofCandles_refused_iff :
    (∃ index, ofCandles t candles = .error (.outOfOrder index)) ↔
      ∃ index, Candle.ClosesLate candles index := by
  constructor
  · rintro ⟨index, refused⟩
    exact ⟨index, (ofCandles_outOfOrder_iff.mp refused).1⟩
  · intro late
    classical
    refine ⟨Nat.find late, ofCandles_outOfOrder_iff.mpr ⟨Nat.find_spec late, ?_⟩⟩
    intro index other
    exact Nat.find_min' late other

theorem ofCandles_ok_iff : (∃ s, ofCandles t candles = .ok s) ↔
    (∀ i, ¬ Candle.ClosesLate candles i) ∧ t.VolumesFit candles := by
  rw [← inOrder_iff, ← volumesFit_iff]
  constructor
  · rintro ⟨s, made⟩
    obtain ⟨ordered, bars, -⟩ := ofCandles_eq_ok_iff.mp made
    exact ⟨ordered, s.bars, bars⟩
  · rintro ⟨ordered, bars, made⟩
    exact ⟨⟨t, bars⟩, ofCandles_eq_ok_iff.mpr ⟨ordered, made, rfl⟩⟩

/-- What a series of bars says of the candles behind it. -/
structure Reflects (s : BarSeries) (t : Timeframe) (candles : List Candle) : Prop where
  timeframe : s.timeframe = t
  cuts : t.Cuts candles (t.stretches candles)
  bars : List.Forall₂ Bar.Summarizes s.bars (t.stretches candles)
  once : ∀ c ∈ candles, ∃! i : Nat, ∃ run : Stretch Candle,
    (t.stretches candles)[i]? = some run ∧ c ∈ run.toList
  ends : s.bars.Pairwise fun a b => a.endTime < b.endTime
  /-- Candles that also open in order make one bar of every day or week in which one opens. -/
  spans : (candles.Pairwise fun a b => a.openTime ≤ b.openTime) →
    ∀ first, t.FirstDay first → (∃ c ∈ candles, t.Covers first c) →
      ∃! i : Nat, ∃ run : Stretch Candle,
        (t.stretches candles)[i]? = some run ∧ ∃ c ∈ run.toList, t.Covers first c

theorem stretches_once (ordered : Candle.InOrder candles) {c : Candle} (member : c ∈ candles) :
    ∃! i : Nat, ∃ run : Stretch Candle, (t.stretches candles)[i]? = some run ∧ c ∈ run.toList := by
  have whole := (t.cuts_stretches candles).whole
  have distinct : candles.Nodup := ordered.imp fun before same => by
    subst same
    exact Timestamp.not_le.mpr before (Timestamp.le_def.mpr (.inr ⟨rfl, Nat.le_refl _⟩))
  rw [← whole, List.mem_flatMap] at member
  rw [← whole, List.nodup_flatMap] at distinct
  refine Stretch.existsUnique_index (distinct.2.imp ?_) member
  intro s u disjoint ⟨left, right⟩
  exact disjoint left right

theorem stretches_spans (opening : candles.Pairwise fun a b => a.openTime ≤ b.openTime)
    {first : Int} (begins : t.FirstDay first) (covered : ∃ c ∈ candles, t.Covers first c) :
    ∃! i : Nat, ∃ run : Stretch Candle,
      (t.stretches candles)[i]? = some run ∧ ∃ c ∈ run.toList, t.Covers first c := by
  have increasing := Stretch.pairwise_cut (opening.imp (Timeframe.bucket_mono (t := t)))
  refine Stretch.existsUnique_index (increasing.imp_of_mem ?_) ?_
  · rintro s u before after less ⟨⟨a, left, own⟩, b, right, other⟩
    have same := Timeframe.bucket_eq_iff.mpr ⟨first, begins, own, other⟩
    rw [Stretch.key_of_mem_cut t.bucket before a left,
      Stretch.key_of_mem_cut t.bucket after b right] at same
    exact absurd same (Int.ne_of_lt less)
  · obtain ⟨c, member, covers⟩ := covered
    rw [← (t.cuts_stretches candles).whole, List.mem_flatMap] at member
    obtain ⟨run, listed, inside⟩ := member
    exact ⟨run, listed, c, inside, covers⟩

theorem ends_increase (ordered : Candle.InOrder candles)
    (outlined : List.Forall₂ Bar.Outlines bars (t.stretches candles)) :
    bars.Pairwise fun a b => a.endTime < b.endTime := by
  have lasts := Stretch.sublist_lasts (t.stretches candles)
  rw [(t.cuts_stretches candles).whole] at lasts
  have increasing := List.pairwise_map.mp (ordered.sublist lasts)
  have same : bars.map Bar.endTime = (t.stretches candles).map fun s => s.last.closeTime := by
    rw [← List.forall₂_eq_eq_eq, List.forall₂_map_left_iff, List.forall₂_map_right_iff]
    exact outlined.imp fun _ _ outlines => outlines.endTime
  rw [← List.pairwise_map (f := Bar.endTime) (R := fun x y => x < y), same, List.pairwise_map]
  exact increasing

theorem ofCandles_reflects {s : BarSeries} (made : ofCandles t candles = .ok s) :
    s.Reflects t candles := by
  obtain ⟨ordered, made, timeframe⟩ := ofCandles_eq_ok_iff.mp made
  have summarized : List.Forall₂ Bar.Summarizes s.bars (t.stretches candles) := by
    have each := List.Forall₂.flip (barsOf_ok_iff.mp made)
    exact each.imp fun _ _ => Bar.ofStretch_summarizes
  exact {
    timeframe
    cuts := t.cuts_stretches candles
    bars := summarized
    once := fun c => stretches_once ordered
    ends := ends_increase ordered (summarized.imp fun _ _ => Bar.Summarizes.toOutlines)
    spans := fun opening first => stretches_spans opening }

/-- Candles are refused where one closes too early, and for the first such one; all others make bars
that reflect them, if their volumes have sums. -/
theorem summarizes_candles (t : Timeframe) (candles : List Candle) :
    ((∃ i, ofCandles t candles = .error (.outOfOrder i)) ↔ ∃ i, Candle.ClosesLate candles i) ∧
    (∀ i, ofCandles t candles = .error (.outOfOrder i) ↔
      IsLeast {j | Candle.ClosesLate candles j} i) ∧
    ((∃ s, ofCandles t candles = .ok s) ↔
      (∀ i, ¬ Candle.ClosesLate candles i) ∧ t.VolumesFit candles) ∧
    ∀ s, ofCandles t candles = .ok s → s.Reflects t candles := by
  refine ⟨?_, ?_, ?_, ?_⟩
  · exact ofCandles_refused_iff
  · intro i
    exact ofCandles_outOfOrder_iff
  · exact ofCandles_ok_iff
  · intro s made
    exact ofCandles_reflects made

def hourCandle (day : Int) (hour : Nat) (opening closing : Decimal) : Candle where
  openTime := .ofMillis ((day * 24 + hour) * 3_600_000)
  closeTime := .ofMillis ((day * 24 + hour + 1) * 3_600_000 - 1)
  opening
  high := opening.max closing
  low := opening.min closing
  closing
  volume := .one

/-- Hours of a Sunday and a Monday in December 1969, of New Year's Day, and of a later Tuesday. -/
def newYear : List Candle :=
  [hourCandle (-4) 9 .one .hundred, hourCandle (-3) 9 .negOne .one,
    hourCandle (-3) 17 .one .hundred, hourCandle 0 9 .hundred .zero, hourCandle 12 9 .one .one]

/-- Three weeks, the second of which is the Monday with New Year's Day. -/
def newYearWeeks : List Bar :=
  [⟨.ofMillis (-86 * 3_600_000 - 1), .one, .hundred, .one, .hundred, .one⟩,
    ⟨.ofMillis (10 * 3_600_000 - 1), .negOne, .hundred, .negOne, .zero, .ofWord 3⟩,
    ⟨.ofMillis (298 * 3_600_000 - 1), .one, .one, .one, .one, .one⟩]

theorem newYear_weeks : ofCandles .weekly newYear = .ok ⟨.weekly, newYearWeeks⟩ ∧
    Reflects ⟨.weekly, newYearWeeks⟩ .weekly newYear := by
  have made : ofCandles .weekly newYear = .ok ⟨.weekly, newYearWeeks⟩ := by decide +kernel
  exact ⟨made, (summarizes_candles _ _).2.2.2 _ made⟩

end BarSeries

end FuturesDesk
