import FuturesDesk.Proofs.Gateway.Idempotence
import Mathlib.Algebra.Order.BigOperators.Group.List
import Mathlib.Algebra.Group.Action.Defs
import Mathlib.Algebra.Order.Ring.Nat

/-! How long a retried call waits. The delays are computed in words of 64 bits that saturate, and come
to what the same rule gives in numbers without a bound. A call pauses after its first attempts, each
of them once and fewer than it may make, so that all its delays together are bounded. -/
namespace FuturesDesk

namespace RetryPolicy

/-- The delay after a failed attempt before anything random, in numbers without a bound. -/
def doubled (p : RetryPolicy) (attempt : Nat) : Nat :=
  min (p.baseDelayMs.toNat * 2 ^ min (max attempt 1 - 1) 16) p.maxDelayMs.toNat

variable {p : RetryPolicy} {attempt : Nat} {jitter : UInt64}

theorem toNat_largest : (UInt64.ofNat (UInt64.size - 1)).toNat = UInt64.size - 1 := by decide

theorem toNat_saturatingMul (a b : UInt64) :
    (saturatingMul a b).toNat = min (a.toNat * b.toNat) (UInt64.size - 1) := by
  rw [saturatingMul]
  split
  case isTrue fits =>
    rw [UInt64.toNat_mul, Nat.mod_eq_of_lt fits]
    omega
  case isFalse beyond =>
    rw [toNat_largest]
    omega

theorem toNat_saturatingAdd (a b : UInt64) :
    (saturatingAdd a b).toNat = min (a.toNat + b.toNat) (UInt64.size - 1) := by
  rw [saturatingAdd]
  split
  case isTrue fits =>
    rw [UInt64.toNat_add, Nat.mod_eq_of_lt fits]
    omega
  case isFalse beyond =>
    rw [toNat_largest]
    omega

/-- A word that saturates and is then cut to another word was not changed by saturating. -/
theorem min_saturated (n : Nat) (cap : UInt64) :
    min (min n (UInt64.size - 1)) cap.toNat = min n cap.toNat := by
  have := cap.toNat_lt
  simp only [UInt64.size]
  omega

theorem toNat_backoff (p : RetryPolicy) (attempt : Nat) :
    (p.backoff attempt).toNat = p.doubled attempt := by
  have times : max attempt 1 - 1 = attempt - 1 := by omega
  have small : twoTo (min (attempt - 1) 16) ≤ twoTo 16 :=
    Nat.pow_le_pow_right (by decide) (Nat.min_le_right _ _)
  have power : (UInt64.ofNat (twoTo (min (attempt - 1) 16))).toNat = 2 ^ min (attempt - 1) 16 :=
    UInt64.toNat_ofNat_of_lt (Nat.lt_of_le_of_lt small (by decide))
  change (min (saturatingMul p.baseDelayMs (UInt64.ofNat (twoTo (min (attempt - 1) 16))))
    p.maxDelayMs).toNat = _
  rw [UInt64.toNat_min, toNat_saturatingMul, power, min_saturated, doubled, times]

theorem toNat_jitterBound (p : RetryPolicy) (attempt : Nat) :
    (p.jitterBound attempt).toNat = p.doubled attempt / 2 := by
  rw [jitterBound, ← toNat_backoff]
  split
  case isTrue => exact UInt64.toNat_div ..
  case isFalse short =>
    rw [UInt64.lt_iff_toNat_lt, Nat.not_lt] at short
    have one : (p.backoff attempt).toNat ≤ 1 := short
    simp only [UInt64.toNat_zero]
    omega

/-- No step of the computation in words is lost to a bound of the words. -/
theorem toNat_delay (p : RetryPolicy) (attempt : Nat) (jitter : UInt64) :
    (p.delay attempt jitter).toNat = min (p.doubled attempt + jitter.toNat) p.maxDelayMs.toNat := by
  rw [delay, UInt64.toNat_min, toNat_saturatingAdd, min_saturated, toNat_backoff]

theorem doubled_mono (p : RetryPolicy) : Monotone p.doubled := by
  intro earlier later le
  have power : 2 ^ min (max earlier 1 - 1) 16 ≤ 2 ^ min (max later 1 - 1) 16 :=
    Nat.pow_le_pow_right (by decide) (by omega)
  exact min_le_min_right _ (Nat.mul_le_mul_left _ power)

theorem delay_le_max (p : RetryPolicy) (attempt : Nat) (jitter : UInt64) :
    (p.delay attempt jitter).toNat ≤ p.maxDelayMs.toNat := by
  rw [toNat_delay]
  exact Nat.min_le_right _ _

theorem delay_bounds (drawn : jitter ≤ p.jitterBound attempt) :
    p.doubled attempt ≤ (p.delay attempt jitter).toNat ∧
      (p.delay attempt jitter).toNat ≤
        min (p.doubled attempt + p.doubled attempt / 2) p.maxDelayMs.toNat := by
  have half : jitter.toNat ≤ p.doubled attempt / 2 := by
    rw [← toNat_jitterBound]
    exact UInt64.le_iff_toNat_le.mp drawn
  have capped : p.doubled attempt ≤ p.maxDelayMs.toNat := Nat.min_le_right _ _
  rw [toNat_delay]
  omega

end RetryPolicy

namespace Guarded
open Program

/-- The attempts after which a call paused, in a conversation with it. -/
def pauses (talk : Talk) : List Nat :=
  talk.filterMap fun
    | ⟨.guard (.pause attempt), _⟩ => some attempt
    | _ => none

/-- How long the pauses of a conversation take in all, with a random part drawn for each. -/
def totalDelay (p : RetryPolicy) (draws : Nat → UInt64) (talk : Talk) : Nat :=
  ((pauses talk).map fun attempt => (p.delay attempt (draws attempt)).toNat).sum

def Brisk (q : Step) : Prop := ∀ attempt, q ≠ .guard (.pause attempt)

variable {p : RetryPolicy} {c : ExchangeCall} {talk : Talk}

theorem pauses_append (first rest : Talk) : pauses (first ++ rest) = pauses first ++ pauses rest :=
  List.filterMap_append

theorem pauses_of_brisk {α : Type} {task : Task α} (brisk : task.Only Brisk)
    (held : task.Holds talk) : pauses talk = [] := by
  refine List.filterMap_eq_nil_iff.mpr ?_
  intro x member
  have other := brisk.of_mem held x member
  split
  case h_1 attempt _ => exact absurd rfl (other attempt)
  case h_2 => rfl

theorem attempt_brisk (c : ExchangeCall) : (attempt c).Only Brisk := by
  refine ⟨nofun, ?_⟩
  rintro (_ | admission)
  · trivial
  · refine ⟨nofun, ?_⟩
    rintro (e | ⟨⟩)
    · exact ⟨nofun, fun _ => trivial⟩
    · exact ⟨nofun, fun reply => ⟨nofun, fun _ => trivial⟩⟩

/-- A series of attempts pauses after the first of them, the next one and so on. -/
theorem pauses_attempts {number more : Nat} (held : (attempts c number more).Holds talk) :
    ∃ count ≤ more, pauses talk = List.range' number count := by
  induction more generalizing number talk with
  | zero => exact ⟨0, Nat.le_refl 0, pauses_of_brisk (attempt_brisk c) held⟩
  | succ more ih =>
    rw [attempts, holds_bind] at held
    obtain trying | ⟨first, reply, rest, rfl, tried, held⟩ := held
    · exact ⟨0, Nat.zero_le _, pauses_of_brisk (attempt_brisk c) trying⟩
    · rw [pauses_append, pauses_of_brisk (attempt_brisk c) tried.holds, List.nil_append]
      split at held
      case h_1 =>
        obtain rfl | ⟨_, rest, rfl, held⟩ := held
        · exact ⟨0, Nat.zero_le _, rfl⟩
        · obtain ⟨count, fewer, later⟩ := ih held
          refine ⟨count + 1, Nat.succ_le_succ fewer, ?_⟩
          rw [List.range'_succ, ← later]
          rfl
      case h_2 =>
        obtain rfl := held
        exact ⟨0, Nat.zero_le _, rfl⟩

theorem pauses_call {knowsIds : Bool} (held : (call p knowsIds c).Holds talk) :
    ∃ count ≤ p.maxAttempts - 1, pauses talk = List.range' 1 count := by
  cases c with
  | placeOrder order =>
    cases knowsIds with
    | false => exact ⟨0, Nat.zero_le _, pauses_of_brisk (attempt_brisk _) held⟩
    | true =>
      simp only [call, placeOrder, if_true, identified] at held
      cases own : order.clientId with
      | some id =>
        rw [own] at held
        exact pauses_attempts held
      | none =>
        rw [own] at held
        obtain rfl | ⟨id, rest, rfl, held⟩ := held
        · exact ⟨0, Nat.zero_le _, rfl⟩
        · obtain ⟨count, fewer, paused⟩ := pauses_attempts held
          exact ⟨count, fewer, paused⟩
  | _ => exact pauses_attempts held

theorem totalDelay_le {count : Nat} (draws : Nat → UInt64)
    (paused : pauses talk = List.range' 1 count) :
    totalDelay p draws talk ≤ count * p.maxDelayMs.toNat := by
  have each : ∀ ms ∈ (pauses talk).map fun attempt => (p.delay attempt (draws attempt)).toNat,
      ms ≤ p.maxDelayMs.toNat := by
    rintro _ member
    obtain ⟨attempt, _, rfl⟩ := List.mem_map.mp member
    exact p.delay_le_max attempt (draws attempt)
  have many : (pauses talk).length = count := by
    rw [paused, List.length_range']
  have summed := List.sum_le_card_nsmul _ _ each
  rwa [List.length_map, many, smul_eq_mul] at summed

/-- What a call waits is bounded, for every policy. A delay is what the unbounded rule gives: it lies
between the doubled base and half of that more, never above the maximum, and the doubled base does not
decrease from one attempt to the next. Up to any point of a call, whatever it was told, its pauses
follow its first attempts, and take no more in all than one maximum for every attempt but one. -/
theorem waits_stay_bounded (p : RetryPolicy) :
    (∀ attempt jitter, jitter ≤ p.jitterBound attempt →
      (p.delay attempt jitter).toNat = min (p.doubled attempt + jitter.toNat) p.maxDelayMs.toNat ∧
      p.doubled attempt ≤ (p.delay attempt jitter).toNat ∧
      (p.delay attempt jitter).toNat ≤
        min (p.doubled attempt + p.doubled attempt / 2) p.maxDelayMs.toNat) ∧
    (∀ attempt, (p.backoff attempt).toNat = p.doubled attempt ∧
      (p.jitterBound attempt).toNat = p.doubled attempt / 2) ∧
    Monotone p.doubled ∧
    ∀ knowsIds c talk, (call p knowsIds c).Holds talk →
      (∃ count ≤ p.maxAttempts - 1, pauses talk = List.range' 1 count) ∧
      ∀ draws, totalDelay p draws talk ≤ (p.maxAttempts - 1) * p.maxDelayMs.toNat := by
  refine ⟨?delays, ?words, p.doubled_mono, ?calls⟩
  case delays =>
    intro attempt jitter drawn
    exact ⟨p.toNat_delay attempt jitter, RetryPolicy.delay_bounds drawn⟩
  case words => exact fun attempt => ⟨p.toNat_backoff attempt, p.toNat_jitterBound attempt⟩
  case calls =>
    intro knowsIds c talk held
    obtain ⟨count, fewer, paused⟩ := pauses_call held
    refine ⟨⟨count, fewer, paused⟩, ?_⟩
    intro draws
    exact (totalDelay_le draws paused).trans (Nat.mul_le_mul_right _ fewer)

/-- Delays near the end of the words: the third one would pass it. -/
def slowPolicy : RetryPolicy where
  baseDelayMs := 4_611_686_018_427_387_904
  maxDelayMs := 18_446_744_073_709_551_615

/-- A call that has failed twice has waited four and a half times the base at most, and would wait
for the maximum after a third failure. -/
theorem slow_waits_stay_bounded :
    ∃ talk : Talk, (call slowPolicy true (.price "BTCUSDT")).Holds talk ∧ pauses talk = [1, 2] ∧
      totalDelay slowPolicy slowPolicy.jitterBound talk = 20_752_587_082_923_245_568 ∧
      totalDelay slowPolicy slowPolicy.jitterBound talk ≤ 2 * slowPolicy.maxDelayMs.toNat ∧
      slowPolicy.jitterBound 3 = 9_223_372_036_854_775_807 ∧
      (slowPolicy.delay 3 (slowPolicy.jitterBound 3)).toNat = slowPolicy.maxDelayMs.toNat := by
  let failed (attempt : Nat) : Talk := [⟨.guard (.acquire .marketData), some ⟨0⟩⟩,
    ⟨.guard (.takeToken .marketData), .ok ()⟩,
    ⟨.forward (.price "BTCUSDT"), .error (.transient "503")⟩,
    ⟨.guard (.report .marketData ⟨0⟩ (some (.transient "503"))), ()⟩,
    ⟨.guard (.pause attempt), ()⟩]
  have paused {more attempt : Nat} {rest : Talk}
      (held : (attempts (.price "BTCUSDT") (attempt + 1) more).Holds rest) :
      (attempts (.price "BTCUSDT") attempt (more + 1)).Holds (failed attempt ++ rest) :=
    .inr ⟨some ⟨0⟩, _, rfl, .inr ⟨.ok (), _, rfl, .inr ⟨.error (.transient "503"), _, rfl,
      .inr ⟨(), _, rfl, .inr ⟨(), _, rfl, held⟩⟩⟩⟩⟩
  have held : (call slowPolicy true (.price "BTCUSDT")).Holds (failed 1 ++ (failed 2 ++ [])) :=
    paused (paused holds_nil)
  obtain ⟨delays, _, _, calls⟩ := waits_stay_bounded slowPolicy
  refine ⟨_, held, rfl, by decide, (calls true _ _ held).2 _, by decide, ?_⟩
  rw [(delays 3 _ (UInt64.le_refl _)).1]
  decide

end Guarded

end FuturesDesk
