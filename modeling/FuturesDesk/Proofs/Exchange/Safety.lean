import FuturesDesk.Proofs.Exchange.Overflow
import FuturesDesk.Proofs.Exchange.Traffic

/-! Nothing but an overflow breaks off an order. While calls on an account interleave and prices are
positive, leverages are positive and stored positions have a size, so that no margin and no average
is ever divided by zero. -/
namespace FuturesDesk
open Decimal

namespace PaperAccount
variable {a : PaperAccount}

/-- What an account may divide by: the leverage of a symbol, in a margin, and the size of a position
that grows, in its entry price. -/
inductive Divisor (a : PaperAccount) : Decimal → Prop where
  | leverage (symbol : String) : Divisor a (a.leverage symbol)
  | size {symbol : String} {p : PaperPosition} {delta size : Decimal}
      (held : (symbol, p) ∈ a.positions) (sized : p.quantity.abs.add delta.abs = .ok size) :
      Divisor a size

theorem Sound.divisor_pos (sound : a.Sound) {d : Decimal} (divides : a.Divisor d) :
    0 < d.value := by
  cases divides with
  | leverage symbol =>
    obtain ⟨n, least, _, same⟩ := sound.leverage symbol
    rw [same, value_ofWord]
    exact Nat.cast_pos.mpr (UInt32.le_iff_toNat_le.mp least)
  | size held sized => exact (sound.positions _ held).size_pos sized

end PaperAccount

namespace Paper

def AccountStep.Priced : AccountStep → Prop
  | .settle _ price => .zero < price
  | .wallet | .setLeverage _ _ | .review _ => True

def AccountStep.Reviewed : AccountStep → Prop
  | .settle order _ => ∃ earlier : PaperAccount, earlier.review order = none
  | .wallet | .setLeverage _ _ | .review _ => True

theorem AccountStep.apply_reachable {q : AccountStep} {a : PaperAccount}
    (run : PaperAccount.Reachable a) (reviewed : q.Reviewed) (priced : q.Priced) :
    PaperAccount.Reachable (q.apply a).2 := by
  cases q with
  | wallet => exact run
  | review => exact run
  | setLeverage symbol leverage => exact run.setLeverage symbol leverage
  | settle order price =>
    obtain ⟨earlier, passed⟩ := reviewed
    exact run.settle passed priced

/-- A call broke off with a cause: its order overflowed at the account that it was settled on. -/
inductive BrokenOff : ExchangeCall → Decimal.Fault → List Use → Prop where
  | order {order : Order} {price : Decimal} {a : PaperAccount} {cause : Decimal.Fault}
      {before : List Use} (faulted : (a.settle order price).1 = .error cause)
      (overflows : a.Overflows order price cause) :
      BrokenOff (.placeOrder order) cause (before ++ [⟨.settle order price, a⟩])

/-- Whatever the market answers and whatever the account has become at the next use of it, the call
settles only what passed the review, and breaks off only where its order overflows. -/
def Orderly (c : ExchangeCall) : Task c.Reply → List Use → Prop
  | .done _, _ => True
  | .fault cause, uses => BrokenOff c cause uses
  | .ask (.market _) next, uses => ∀ reply, Orderly c (next reply) uses
  | .ask (.account q) next, uses => q.Reviewed ∧ ∀ a, PaperAccount.Reachable a → q.Priced →
      Orderly c (next (q.apply a).1) (uses ++ [⟨q, a⟩])

theorem placeOrder_orderly (order : Order) : Orderly (.placeOrder order) (placeOrder order) [] := by
  refine ⟨trivial, ?_⟩
  intro a _ _
  cases reviewed : ((AccountStep.review order).apply a).1 with
  | some answer => trivial
  | none =>
    rintro (e | price)
    · trivial
    · refine ⟨⟨a, reviewed⟩, ?_⟩
      intro b run priced
      cases answered : ((AccountStep.settle order price).apply b).1 with
      | ok reply => trivial
      | error cause =>
        have ordered := PaperAccount.quantity_pos_of_review reviewed
        exact .order answered
          (PaperAccount.settle_overflows run.sound ordered priced answered)

theorem call_orderly (c : ExchangeCall) : Orderly c (call c) [] := by
  cases c with
  | placeOrder order => exact placeOrder_orderly order
  | candles symbol timeframe lookback =>
    intro reply
    trivial
  | price symbol =>
    intro reply
    trivial
  | balance => exact ⟨trivial, fun _ _ _ => trivial⟩
  | setLeverage symbol leverage => exact ⟨trivial, fun _ _ _ => trivial⟩

namespace Traffic
variable {s t : Traffic}

def Priced (s : Traffic) : Prop := ∀ u ∈ s.uses, u.step.Priced

structure Safe (s : Traffic) : Prop where
  account : PaperAccount.Reachable s.account
  flights : ∀ i f, s.flights i = some f → Orderly f.call f.task f.uses

namespace Safe

theorem new (wallet : Decimal) : Safe { account := { wallet } } where
  account := .new wallet
  flights := by simp

theorem put (safe : s.Safe) {i : Nat} {f : Option Flight}
    (orderly : ∀ g ∈ f, Orderly g.call g.task g.uses) : (s.put i f).Safe where
  account := safe.account
  flights := forall_put safe.flights orderly

end Safe

theorem moves_safe (safe : s.Safe) (move : Moves s t) (priced : t.Priced) : t.Safe := by
  cases move with
  | begin free c =>
    refine safe.put ?_
    rintro _ ⟨⟩
    exact call_orderly c
  | @use i c q next uses found =>
    obtain ⟨reviewed, orderly⟩ := safe.flights _ _ found
    have positive : q.Priced := priced ⟨q, s.account⟩ (by simp [Traffic.put, Traffic.use])
    have used : (s.use q).Safe :=
      ⟨AccountStep.apply_reachable safe.account reviewed positive, safe.flights⟩
    refine used.put ?_
    rintro _ ⟨⟩
    exact orderly s.account safe.account positive
  | hear found reply =>
    refine safe.put ?_
    rintro _ ⟨⟩
    exact safe.flights _ _ found reply
  | @finish i c reply uses found =>
    have answered : (s.answer ⟨c, reply, uses⟩).Safe := ⟨safe.account, safe.flights⟩
    exact answered.put (by simp)
  | abandon i => exact safe.put (by simp)
  | reorder same => exact ⟨safe.account.reordered same, safe.flights⟩

theorem runs_safe (safe : s.Safe) (run : Runs s t) (priced : t.Priced) : t.Safe := by
  induction run with
  | refl => exact safe
  | step _ move ih =>
    exact moves_safe (ih fun u member => priced u (move.uses u member)) move priced

/-- However calls on a new account interleave, as long as prices are positive: leverages stay in
their range, stored positions have a size and an entry price that is not negative, and their margin
is not negative or overflows. So nothing is divided by zero, and a call breaks off only where its
order overflows. -/
theorem breaks_off_only_by_overflow {wallet : Decimal} (run : Runs { account := { wallet } } s)
    (priced : s.Priced) :
    (∀ entry ∈ s.account.leverages, 1 ≤ entry.2 ∧ entry.2 ≤ 125) ∧
      (∀ entry ∈ s.account.positions,
        entry.2.quantity.value ≠ 0 ∧ 0 ≤ entry.2.entry.value) ∧
      ((∃ used, s.account.usedMargin = .ok used ∧ 0 ≤ used.value) ∨
        ∃ cause, s.account.usedMargin = .error cause ∧ s.account.UsedOverflows cause) ∧
      (∀ d, s.account.Divisor d → 0 < d.value) ∧
      ∀ i c cause uses, s.flights i = some ⟨c, .fault cause, uses⟩ →
        BrokenOff c cause uses ∧ cause ≠ .divisionByZero := by
  have safe := runs_safe (.new wallet) run priced
  have sound := safe.account.sound
  refine ⟨sound.leverages, ?positions, ?margin, fun d => sound.divisor_pos, ?faults⟩
  case positions =>
    intro entry member
    obtain ⟨quantity, entry_⟩ := sound.positions entry member
    exact ⟨quantity, entry_⟩
  case margin =>
    cases held : s.account.usedMargin with
    | ok used => exact .inl ⟨used, rfl, PaperAccount.usedMargin_nonneg sound held⟩
    | error cause => exact .inr ⟨cause, rfl, PaperAccount.usedMargin_overflows sound held⟩
  case faults =>
    intro i c cause uses found
    have broken := safe.flights i _ found
    refine ⟨broken, ?_⟩
    cases broken with
    | order _ overflows => exact overflows.ne_divisionByZero

open PaperAccount (marketOrder)

def leveraged : PaperAccount where
  wallet := .ofWord 1000
  leverages := [("BTCUSDT", 125)]

def leveragedLong : PaperAccount :=
  { leveraged with positions := [("BTCUSDT", ⟨.one, .hundred⟩)], fillCount := 1 }

def oversized : Order :=
  marketOrder .buy ⟨coefficientBound - 1, 0, by decide, Nat.zero_le maxScale⟩

/-- With the highest leverage one unit is bought at a hundred, and then as many as there are: the
margin that they need is too large to be computed. -/
theorem oversized_order_breaks_off :
    ∃ s uses, Runs { account := { wallet := .ofWord 1000 } } s ∧ s.Priced ∧
      s.account = leveragedLong ∧
      s.flights 0 = some ⟨.placeOrder oversized, .fault .multiplication, uses⟩ ∧
      BrokenOff (.placeOrder oversized) .multiplication uses ∧
      (∃ used, s.account.usedMargin = .ok used ∧ 0 ≤ used.value) ∧
      ∀ d, s.account.Divisor d → 0 < d.value := by
  have raising : ({ wallet := .ofWord 1000 } : PaperAccount).setLeverage "BTCUSDT" 125 =
      (.ok (), leveraged) := by
    with_unfolding_all rfl
  have buying : leveraged.settle (marketOrder .buy .one) .hundred =
      (.ok (.ok ⟨"paper-1", some .hundred⟩), leveragedLong) := by
    with_unfolding_all rfl
  have overflowing : leveragedLong.settle oversized .hundred =
      (.error .multiplication, leveragedLong) := by
    with_unfolding_all rfl
  have margin : leveragedLong.usedMargin = .ok ⟨80, 2, by decide, by decide⟩ := by
    decide +kernel
  obtain ⟨_, run, idle, found, uses₁⟩ :=
    Runs.setLeverage (.refl (s := { account := { wallet := .ofWord 1000 } })) rfl rfl raising
  obtain ⟨_, run, idle, found, uses₂⟩ := run.order idle found _ rfl buying
  obtain ⟨s, run, found, broken, uses₃⟩ := run.settle idle found _ rfl overflowing
  have priced : s.Priced := by
    rw [Traffic.Priced, uses₃, uses₂, uses₁]
    simp only [List.nil_append, List.cons_append, List.forall_mem_cons, List.not_mem_nil,
      false_implies, implies_true, and_true]
    have positive : Decimal.zero < .hundred := by decide
    exact ⟨trivial, trivial, positive, trivial, positive⟩
  obtain ⟨_, _, used, positive, faults⟩ := breaks_off_only_by_overflow run priced
  refine ⟨s, _, run, priced, found, broken, (faults 0 _ _ _ broken).1, ?_, positive⟩
  rcases used with used | ⟨_, failed, _⟩
  · exact used
  · rw [found, margin] at failed
    cases failed

end Traffic

end Paper

end FuturesDesk
