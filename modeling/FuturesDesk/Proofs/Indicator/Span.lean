import FuturesDesk.Indicator.BarSeries
import FuturesDesk.Proofs.Stretch
import FuturesDesk.Time.Calendar
import Mathlib.Order.Basic

/-! Candles by the calendar day or week in which they open. The numbers of days and weeks tell these
spans apart before 1970 as well as after, and every day lies in one week. -/
namespace FuturesDesk

/-- Days from 1970-01-01 to the day of a point in time. -/
def Timestamp.day (x : Timestamp) : Int := x.seconds / 86400

/-- The day is a number of whole weeks from a Monday. -/
def Calendar.IsMonday (day : Int) : Prop := 7 ∣ day - dayNumber 1970 1 5

instance (day : Int) : Decidable (Calendar.IsMonday day) :=
  inferInstanceAs (Decidable (7 ∣ day - Calendar.dayNumber 1970 1 5))

example : Calendar.IsMonday (Calendar.dayNumber 1969 12 29) ∧
    Calendar.IsMonday (Calendar.dayNumber 2024 1 1) := by decide

namespace Timeframe

def FirstDay : Timeframe → Int → Prop
  | daily, _ => True
  | weekly, day => Calendar.IsMonday day

def days : Timeframe → Int
  | daily => 1
  | weekly => 7

variable {t : Timeframe} {first : Int} {a b : Candle}

/-- The candle opens in the span that begins on a day. -/
def Covers (t : Timeframe) (first : Int) (c : Candle) : Prop :=
  first ≤ c.openTime.day ∧ c.openTime.day < first + t.days

/-- The candles open on the same day or in the same week from Monday on. -/
def SameSpan (t : Timeframe) (a b : Candle) : Prop :=
  ∃ first, t.FirstDay first ∧ t.Covers first a ∧ t.Covers first b

theorem bucket_eq_iff : t.bucket a = t.bucket b ↔ t.SameSpan a b := by
  cases t with
  | daily =>
    simp only [bucket, barSeconds, firstMonday, SameSpan, FirstDay, Covers, days, Timestamp.day]
    constructor
    · intro same
      exact ⟨a.openTime.seconds / 86400, trivial, by omega, by omega⟩
    · rintro ⟨first, -, left, right⟩
      omega
  | weekly =>
    have monday : Calendar.dayNumber 1970 1 5 = 4 := by decide
    simp only [bucket, barSeconds, firstMonday, SameSpan, FirstDay, Covers, days, Timestamp.day,
      Calendar.IsMonday, monday]
    constructor
    · intro same
      exact ⟨4 + 7 * ((a.openTime.seconds - 4 * 86400) / 604800), by omega, by omega, by omega⟩
    · rintro ⟨first, monday, left, right⟩
      omega

/-- Candles of one day are candles of one week. -/
theorem weekly_bucket_eq (same : daily.bucket a = daily.bucket b) :
    weekly.bucket a = weekly.bucket b := by
  simp only [bucket, barSeconds, firstMonday] at *
  omega

/-- A later candle is in no earlier bucket. -/
theorem bucket_mono (earlier : a.openTime ≤ b.openTime) : t.bucket a ≤ t.bucket b := by
  have seconds : a.openTime.seconds ≤ b.openTime.seconds := by
    rw [Timestamp.le_def] at earlier
    omega
  exact Int.ediv_le_ediv (by cases t <;> decide) (by omega)

/-- The longest runs of neighbours that open on the same day or in the same week. -/
def stretches (t : Timeframe) (candles : List Candle) : List (Stretch Candle) :=
  Stretch.cut t.bucket candles

/-- The list is cut where the day or the week changes, and nowhere else. -/
structure Cuts (t : Timeframe) (candles : List Candle) (stretches : List (Stretch Candle)) :
    Prop where
  whole : stretches.flatMap Stretch.toList = candles
  together : ∀ s ∈ stretches, ∀ a ∈ s.toList, ∀ b ∈ s.toList, t.SameSpan a b
  apart : stretches.IsChain fun s u => ∀ a ∈ s.toList, ∀ b ∈ u.toList, ¬ t.SameSpan a b

theorem cuts_stretches (t : Timeframe) (candles : List Candle) :
    t.Cuts candles (t.stretches candles) where
  whole := Stretch.flatMap_cut t.bucket candles
  together := by
    intro s listed a left b right
    have same := Stretch.key_of_mem_cut t.bucket listed
    exact bucket_eq_iff.mp ((same a left).trans (same b right).symm)
  apart := by
    refine (Stretch.isChain_cut t.bucket candles).imp_of_mem_imp ?_
    intro s u before after apart a left b right same
    rw [← bucket_eq_iff, Stretch.key_of_mem_cut t.bucket before a left,
      Stretch.key_of_mem_cut t.bucket after b right] at same
    exact apart same

end Timeframe

end FuturesDesk
