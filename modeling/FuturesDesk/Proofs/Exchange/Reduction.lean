import FuturesDesk.Exchange.Paper
import FuturesDesk.Proofs.Exchange.Margin
import FuturesDesk.Proofs.Exchange.Trader

/-! Orders that may only reduce a position. One is taken only against a position that is there, is
cut to its size, and then leaves less of it or nothing. -/
namespace FuturesDesk
open Decimal

namespace PaperPosition
variable {p : PaperPosition} {delta price profit : Decimal} {left : Option PaperPosition}

/-- The profit of closing a size of a position at a price: each step is the exact one, rounded, and
the position's side gives the sign. -/
def Earns (p : PaperPosition) (price : Decimal) (closed : ℚ) (profit : Decimal) : Prop :=
  ∃ gain gross, Rounds (price.value - p.entry.value) gain ∧ Rounds (gain.value * closed) gross ∧
    profit.value = if 0 ≤ p.quantity.value then gross.value else -gross.value

/-- What closing a size leaves of a position: nothing if that is all of it, else the same position
with the size that remains, rounded. -/
def Leaves (p : PaperPosition) (closed : ℚ) (left : Option PaperPosition) : Prop :=
  if closed = |p.quantity.value| then left = none
  else ∃ rest, left = some rest ∧ rest.entry = p.entry ∧
    0 < p.quantity.value * rest.quantity.value ∧
    |rest.quantity.value| ≤ |p.quantity.value| ∧
    Rounds (|p.quantity.value| - closed) rest.quantity.abs

theorem value_sided (gross profit : Decimal)
    (sided : gross.mul (if p.quantity.isNonneg then .one else .negOne) = .ok profit) :
    profit.value = if 0 ≤ p.quantity.value then gross.value else -gross.value := by
  have rounds := mul_rounds sided
  split at rounds
  case isTrue long =>
    rw [if_pos (isNonneg_iff.mp long)]
    rw [value_one, mul_one] at rounds
    exact rounds.unique (.ofDecimal gross)
  case isFalse short =>
    rw [if_neg (mt isNonneg_iff.mpr short)]
    rw [value_negOne, mul_neg_one] at rounds
    rw [← value_neg]
    exact rounds.unique (Rounds.ofDecimal gross).neg

/-- A fill of the other side that does not pass the position closes its size of it. -/
theorem reduce_within (against : PaperAccount.Opposed p.quantity delta)
    (within : |delta.value| ≤ |p.quantity.value|)
    (ended : p.reduce delta price = .ok (left, profit)) :
    p.Earns price |delta.value| profit ∧ p.Leaves |delta.value| left := by
  obtain ⟨gain, gross, remaining, gaining, closing, siding, adding, rfl⟩ := reduce_computed ended
  constructor
  · refine ⟨gain, gross, sub_rounds gaining, ?_, value_sided gross profit siding⟩
    have rounds := mul_rounds closing
    rwa [value_min, value_abs, value_abs, min_eq_left within] at rounds
  · obtain ⟨side, smaller, size⟩ := against.remains within (add_rounds adding)
    have gone : remaining.value = 0 ↔ |delta.value| = |p.quantity.value| :=
      (add_eq_zero_iff adding).trans against.sum_eq_zero_iff
    rw [Leaves]
    split
    case isTrue all =>
      rw [remainder, if_pos (isZero_iff.mpr (gone.mpr all))]
    case isFalse some_ =>
      have nonzero : remaining.value ≠ 0 := mt gone.mp some_
      have signed : 0 < p.quantity.value * remaining.value :=
        lt_of_le_of_ne side (mul_ne_zero against.ne_zero nonzero).symm
      have same : sameSide remaining p.quantity = true := by
        rw [sameSide_iff]
        constructor
        · intro long
          exact (pos_of_mul_pos_left signed long).le
        · intro long
          exact (pos_of_mul_pos_right signed long).le
      refine ⟨⟨remaining, p.entry⟩, ?_, rfl, signed, smaller, size⟩
      rw [remainder, if_neg (mt isZero_iff.mp nonzero), if_pos same]

end PaperPosition

namespace PaperAccount
variable {a after : PaperAccount} {order : Order} {price delta profit : Decimal}
  {p : PaperPosition} {left : Option PaperPosition}

/-- The position on a symbol is no larger and not turned, and no other position changed. -/
structure Shrinks (a after : PaperAccount) (symbol : String) : Prop where
  size : ¬ Enlarges (a.position symbol) (after.position symbol)
  elsewhere : ∀ other, other ≠ symbol →
    Keyed.find? other after.positions = Keyed.find? other a.positions

/-- What an account becomes when an order closes a part of a position, or all of it, at a price. -/
structure Reduces (a after : PaperAccount) (order : Order) (price : Decimal) (p : PaperPosition) :
    Prop where
  held : Keyed.find? order.symbol a.positions = some p
  left : p.Leaves (min order.quantity.value |p.quantity.value|)
    (Keyed.find? order.symbol after.positions)
  paid : ∃ profit, p.Earns price (min order.quantity.value |p.quantity.value|) profit ∧
    Rounds (a.wallet.value + profit.value) after.wallet ∧
    Rounds (a.realizedPnl.value + profit.value) after.realizedPnl
  leverages : after.leverages = a.leverages

theorem Shrinks.refl (a : PaperAccount) (symbol : String) : a.Shrinks a symbol :=
  ⟨not_enlarges_self _, fun _ _ => rfl⟩

theorem shrinks_of_leaves {symbol : String} {closed : ℚ}
    (held : Keyed.find? symbol a.positions = some p) (leaves : p.Leaves closed left)
    (stored : after.positions = (a.setPosition symbol left).positions) :
    a.Shrinks after symbol := by
  constructor
  · have new : after.position symbol = (left.map (·.quantity)).getD .zero := by
      rw [← position_setPosition, position, position, stored]
    rw [position_of_find? held, new]
    rw [PaperPosition.Leaves] at leaves
    split at leaves
    · subst leaves
      exact not_enlarges_of_side (by simp) (by simp)
    · obtain ⟨rest, rfl, _, signed, smaller, _⟩ := leaves
      exact not_enlarges_of_side signed.le smaller
  · intro other elsewhere
    rw [stored, find?_setPosition, if_neg elsewhere.symm]

theorem admitted_reduceOnly (limited : order.reduceOnly = true) (price : Decimal) :
    a.admitted order price = .ok (if a.opens order = true then
      .error (.rejected notReducingMessage)
    else .ok (if (a.position order.symbol).abs < (signedQuantity order).abs then
      -a.position order.symbol else signedQuantity order)) := by
  rw [admitted_eq, if_pos limited]
  split <;> rfl

/-- The positions that an order cannot reduce: none at all and those of its own side. -/
theorem opens_iff (ordered : 0 < order.quantity.value) :
    a.opens order = true ↔ (a.position order.symbol).isZero = true ∨
      .zero < a.position order.symbol ∧ order.side = .buy ∨
      a.position order.symbol < .zero ∧ order.side = .sell := by
  constructor
  · intro opening
    by_contra reducible
    rw [not_or, isZero_iff, lt_iff_value, lt_iff_value, value_zero] at reducible
    obtain ⟨nonzero, other⟩ := reducible
    have against : a.opens order = false := by
      refine closing_of_against ordered ?_
      rw [lt_iff_value, lt_iff_value, value_zero]
      rcases lt_or_gt_of_ne nonzero with short | long
      · cases side : order.side with
        | buy => exact .inl ⟨short, rfl⟩
        | sell => exact absurd (.inr ⟨short, side⟩) other
      · cases side : order.side with
        | buy => exact absurd (.inl ⟨long, side⟩) other
        | sell => exact .inr ⟨long, rfl⟩
    cases opening.symm.trans against
  · intro irreducible
    by_contra closing
    have against := against_of_closing ordered (Bool.eq_false_iff.mpr closing)
    rw [isZero_iff, lt_iff_value, lt_iff_value, value_zero] at irreducible
    rcases against with ⟨short, side⟩ | ⟨long, side⟩
    · simp [short.ne, side, not_lt.mpr short.le] at irreducible
    · simp [long.ne', side, not_lt.mpr long.le] at irreducible

/-- A fill that a reduce-only order was cut to closes its quantity of the position, or all of it. -/
theorem fill_reduces (ordered : 0 < order.quantity.value) (against : a.opens order = false)
    (filled : PaperPosition.fill (Keyed.find? order.symbol a.positions)
      (if (a.position order.symbol).abs < (signedQuantity order).abs then
        -a.position order.symbol else signedQuantity order) price = .ok (left, profit)) :
    ∃ p, Keyed.find? order.symbol a.positions = some p ∧
      p.Earns price (min order.quantity.value |p.quantity.value|) profit ∧
      p.Leaves (min order.quantity.value |p.quantity.value|) left := by
  have opposed := signed_against ordered (against_of_closing ordered against)
  obtain ⟨opposite, size⟩ := opposed.cut
  rw [size_signedQuantity ordered] at size
  obtain ⟨p, held, stored⟩ := held_of_opposed opposed
  rw [stored] at filled opposite size
  rw [held, fill_opposed opposite] at filled
  obtain ⟨earns, leaves⟩ :=
    PaperPosition.reduce_within opposite (size.trans_le (min_le_right _ _)) filled
  rw [size] at earns leaves
  exact ⟨p, held, earns, leaves⟩

/-- How a reduce-only order ends once its price is known. -/
inductive ReduceOnlyEnds (a : PaperAccount) (order : Order) (price : Decimal) :
    Except Fault (Except GatewayError OrderAck) → PaperAccount → Prop where
  | refused (nothing : a.opens order = true) :
      ReduceOnlyEnds a order price (.ok (.error (.rejected notReducingMessage))) a
  | faulted {f after} (against : a.opens order = false) (shrinks : a.Shrinks after order.symbol) :
      ReduceOnlyEnds a order price (.error f) after
  | filled {ack after p} (against : a.opens order = false) (shrinks : a.Shrinks after order.symbol)
      (reduces : a.Reduces after order price p) : ReduceOnlyEnds a order price (.ok (.ok ack)) after

theorem settle_reduceOnly (ordered : 0 < order.quantity.value) (limited : order.reduceOnly = true)
    (fresh : a.previousFill? order = none) (price : Decimal) :
    ReduceOnlyEnds a order price (a.settle order price).1 (a.settle order price).2 := by
  have ended := settle_settles a order price
  generalize (a.settle order price).1 = result, (a.settle order price).2 = after at ended ⊢
  have checked := admitted_reduceOnly (a := a) limited price
  cases against : a.opens order with
  | true =>
    rw [against, if_pos rfl] at checked
    cases ended with
    | replayed known => cases fresh.symm.trans known
    | unchecked _ faulted => cases checked.symm.trans faulted
    | refused _ refused =>
      cases checked.symm.trans refused
      exact .refused against
    | unfilled _ admitted => cases checked.symm.trans admitted
    | unpaid _ admitted => cases checked.symm.trans admitted
    | unbooked _ admitted => cases checked.symm.trans admitted
    | filled _ admitted => cases checked.symm.trans admitted
  | false =>
    rw [against, if_neg Bool.false_ne_true] at checked
    cases ended with
    | replayed known => cases fresh.symm.trans known
    | unchecked _ faulted => cases checked.symm.trans faulted
    | refused _ refused => cases checked.symm.trans refused
    | unfilled => exact .faulted against (.refl a _)
    | unpaid _ admitted filled _ =>
      cases checked.symm.trans admitted
      obtain ⟨p, held, _, leaves⟩ := fill_reduces ordered against filled
      exact .faulted against (shrinks_of_leaves held leaves rfl)
    | unbooked _ admitted filled _ _ =>
      cases checked.symm.trans admitted
      obtain ⟨p, held, _, leaves⟩ := fill_reduces ordered against filled
      exact .faulted against (shrinks_of_leaves held leaves rfl)
    | @filled _ left profit wallet realizedPnl _ admitted filled paid booked =>
      cases checked.symm.trans admitted
      obtain ⟨p, held, earns, leaves⟩ := fill_reduces ordered against filled
      refine .filled against (shrinks_of_leaves held leaves rfl) ⟨held, ?_,
        ⟨profit, earns, add_rounds paid, add_rounds booked⟩, setPosition_leverages _ _ _⟩
      have stored := (find?_setPosition a order.symbol order.symbol left).trans (if_pos rfl)
      change p.Leaves _ (Keyed.find? order.symbol (a.setPosition order.symbol left).positions)
      rwa [stored]

end PaperAccount

namespace Paper

/-- Answers the steps of a call from an account. While the market answers, others change the account
as they like. -/
def answer (quotes : (c : ExchangeCall) → c.Reply) (meanwhile : PaperAccount → PaperAccount) :
    (s : Step) → PaperAccount → s.Reply × PaperAccount
  | .account s, a => s.apply a
  | .market c, a => (quotes c, meanwhile a)

variable {quotes : (c : ExchangeCall) → c.Reply} {meanwhile : PaperAccount → PaperAccount}
  {a earlier after : PaperAccount} {order : Order} {price : Decimal}
  {result : Except Fault (Except GatewayError OrderAck)}

/-- An order whose quantity is not positive is refused at once, any other is settled at its
price. -/
theorem run_placeOrder (fresh : earlier.previousFill? order = none)
    (priced : quotes (.price order.symbol) = .ok price) :
    (placeOrder order).run (answer quotes meanwhile) earlier =
      if order.quantity ≤ .zero then
        (.ok (.error (.rejected (PaperAccount.quantityMessage order.quantity))), earlier)
      else (meanwhile earlier).settle order price := by
  have steps : (placeOrder order).run (answer quotes meanwhile) earlier =
      match earlier.review order with
      | some answer => (.ok answer, earlier)
      | none => (meanwhile earlier).settle order price := by
    simp only [placeOrder, account, Program.question, Program.ask_bind, Program.done_bind,
      Program.run, answer, AccountStep.apply]
    cases earlier.review order with
    | some => rfl
    | none =>
      simp only [market, Program.question, Program.ask_bind, Program.done_bind, Program.run,
        answer, priced, AccountStep.apply]
      generalize (meanwhile earlier).settle order price = settled
      obtain ⟨result, _⟩ := settled
      cases result <;> rfl
  rw [steps, PaperAccount.review, fresh]
  by_cases nothing : order.quantity ≤ .zero
  · simp only [if_pos nothing]
  · simp only [if_neg nothing]

/-- A reduce-only order only reduces. Of orders whose price is known and whose id has not been
filled, exactly those are rejected whose quantity is not positive and those against no position or
one of their own side; a rejection changes nothing. One that is taken books the profit on its
quantity, or on all of the position if that is less, and leaves what remains at the old entry price.
Whatever happens, the position is not enlarged or turned and no other is touched. -/
theorem reduce_only_orders_reduce (limited : order.reduceOnly = true)
    (fresh : earlier.previousFill? order = none)
    (unfilled : (meanwhile earlier).previousFill? order = none)
    (priced : quotes (.price order.symbol) = .ok price)
    (ended : (placeOrder order).run (answer quotes meanwhile) earlier = (result, after)) :
    ((∃ reason, result = .ok (.error (.rejected reason))) ↔
      order.quantity ≤ .zero ∨ ((meanwhile earlier).position order.symbol).isZero = true ∨
        .zero < (meanwhile earlier).position order.symbol ∧ order.side = .buy ∨
        (meanwhile earlier).position order.symbol < .zero ∧ order.side = .sell) ∧
    (∀ e, result = .ok (.error e) → (∃ reason, e = .rejected reason) ∧
      after = if order.quantity ≤ .zero then earlier else meanwhile earlier) ∧
    (∀ ack, result = .ok (.ok ack) → ∃ p, (meanwhile earlier).Reduces after order price p) ∧
    (¬ order.quantity ≤ .zero → (meanwhile earlier).Shrinks after order.symbol) := by
  rw [run_placeOrder fresh priced] at ended
  split at ended
  case isTrue nothing =>
    cases ended
    refine ⟨iff_of_true ⟨_, rfl⟩ (.inl nothing), ?_, nofun, fun positive => absurd nothing positive⟩
    rintro _ ⟨⟩
    exact ⟨⟨_, rfl⟩, (if_pos nothing).symm⟩
  case isFalse positive =>
    have ordered : 0 < order.quantity.value := not_le.mp (mt le_zero_iff_value.mpr positive)
    have ends := PaperAccount.settle_reduceOnly ordered limited unfilled price
    rw [ended] at ends
    rw [or_iff_right positive, ← PaperAccount.opens_iff ordered, if_neg positive]
    cases ends with
    | refused nothing =>
      refine ⟨iff_of_true ⟨_, rfl⟩ nothing, ?_, nofun, fun _ => .refl _ _⟩
      rintro _ ⟨⟩
      exact ⟨⟨_, rfl⟩, rfl⟩
    | faulted against shrinks =>
      rw [against]
      exact ⟨iff_of_false nofun Bool.false_ne_true, nofun, nofun, fun _ => shrinks⟩
    | filled against shrinks reduces =>
      rw [against]
      exact ⟨iff_of_false nofun Bool.false_ne_true, nofun, fun _ _ => ⟨_, reduces⟩,
        fun _ => shrinks⟩

def quoting (price : Decimal) : (c : ExchangeCall) → c.Reply
  | .price _ => .ok price
  | .candles _ _ _ | .balance | .setLeverage _ _ | .placeOrder _ => .error (.rejected "not served")

def sellHundred : Order := { PaperAccount.marketOrder .sell .hundred with reduceOnly := true }

theorem settle_sellHundred :
    (PaperAccount.walletOfHundred 1 (some .one)).settle sellHundred .one =
      (.ok (.ok ⟨"paper-2", some .one⟩),
        { wallet := .one, realizedPnl := ⟨-99, 0, by decide, by decide⟩, fillCount := 2 }) := by
  with_unfolding_all rfl

/-- Against the one unit that was bought at a hundred, it closes the position at a price of one. -/
theorem oversized_order_closes :
    ∃ ack after, (placeOrder sellHundred).run (answer (quoting .one) id)
        (PaperAccount.walletOfHundred 1 (some .one)) = (.ok (.ok ack), after) ∧
      after.wallet = .one ∧ after.positions = [] ∧
      ∃ p, (PaperAccount.walletOfHundred 1 (some .one)).Reduces after sellHundred .one p := by
  have ended : (placeOrder sellHundred).run (answer (quoting .one) id)
      (PaperAccount.walletOfHundred 1 (some .one)) = _ :=
    (run_placeOrder rfl rfl).trans ((if_neg (by decide)).trans settle_sellHundred)
  obtain ⟨_, _, reduces, _⟩ := reduce_only_orders_reduce rfl rfl rfl rfl ended
  exact ⟨_, _, ended, rfl, rfl, reduces _ rfl⟩

end Paper

end FuturesDesk
