import FuturesDesk.Proofs.Exchange.Margin
import FuturesDesk.Proofs.Exchange.Trader
import FuturesDesk.Proofs.Exchange.Traffic
import Mathlib.Algebra.BigOperators.Group.Finset.Basic
import Mathlib.Tactic.LinearCombination
import Mathlib.Tactic.Ring

/-! The cash flow of a paper account. While no amount is rounded, a position is the sum of the fills
on its symbol, and the profit booked so far is what the open positions cost at their entry prices
less everything paid for fills; the wallet holds what it began with and that profit. -/
namespace FuturesDesk
open Decimal

namespace Decimal

/-- An operation ends with a decimal that is worth exactly a number. -/
structure Exact (result : Except Fault Decimal) (x : ℚ) (d : Decimal) : Prop where
  ended : result = .ok d
  worth : d.value = x

abbrev ExactSum (a b : Decimal) : Decimal → Prop := Exact (a.add b) (a.value + b.value)

abbrev ExactDifference (a b : Decimal) : Decimal → Prop := Exact (a.sub b) (a.value - b.value)

abbrev ExactProduct (a b : Decimal) : Decimal → Prop := Exact (a.mul b) (a.value * b.value)

abbrev ExactQuotient (a b : Decimal) : Decimal → Prop := Exact (a.div b) (a.value / b.value)

theorem ExactQuotient.value_mul {a b c : Decimal} (exact : ExactQuotient a b c) :
    c.value * b.value = a.value := by
  have divisor : b.value ≠ 0 := by
    intro zero_
    have ended := exact.ended
    rw [div, if_pos (isZero_iff.mpr zero_)] at ended
    cases ended
  rw [exact.worth, div_mul_cancel₀ _ divisor]

end Decimal

namespace PaperPosition

def size (p : Option PaperPosition) : ℚ := p.elim 0 fun p => p.quantity.value

def cost (p : Option PaperPosition) : ℚ := p.elim 0 fun p => p.quantity.value * p.entry.value

structure GrowsExactly (p : PaperPosition) (delta price : Decimal) (grown : PaperPosition) :
    Prop where
  quantity : ExactSum p.quantity delta grown.quantity
  entry : ∃ size held bought cost, ExactSum p.quantity.abs delta.abs size ∧
    ExactProduct p.quantity.abs p.entry held ∧ ExactProduct delta.abs price bought ∧
    ExactSum held bought cost ∧ ExactQuotient cost size grown.entry

structure ReducesExactly (p : PaperPosition) (delta price remaining profit : Decimal) : Prop where
  remaining : ExactSum p.quantity delta remaining
  profit : ∃ gain gross, ExactDifference price p.entry gain ∧
    ExactProduct gain (delta.abs.min p.quantity.abs) gross ∧
    ExactProduct gross (if p.quantity.isNonneg then .one else .negOne) profit

/-- A fill in which no operation rounds. -/
inductive FillsExactly (delta price : Decimal) :
    Option PaperPosition → Option PaperPosition × Decimal → Prop where
  | opens : FillsExactly delta price none (some ⟨delta, price⟩, .zero)
  | grows {p grown : PaperPosition} (same : sameSide p.quantity delta = true)
      (exact_ : p.GrowsExactly delta price grown) :
      FillsExactly delta price (some p) (some grown, .zero)
  | reduces {p : PaperPosition} {remaining profit : Decimal}
      (other : sameSide p.quantity delta = false)
      (exact_ : p.ReducesExactly delta price remaining profit) :
      FillsExactly delta price (some p) (p.remainder remaining price, profit)

variable {p grown : PaperPosition} {current : Option PaperPosition}
  {result : Option PaperPosition × Decimal} {delta price remaining profit : Decimal}

theorem GrowsExactly.grow (exact_ : p.GrowsExactly delta price grown) :
    p.grow delta price = .ok grown := by
  obtain ⟨size, held, bought, cost, sized, holding, buying, costing, entering⟩ := exact_.entry
  simp [PaperPosition.grow, sized.ended, holding.ended, buying.ended, costing.ended,
    entering.ended, exact_.quantity.ended, bind, Except.bind, pure, Except.pure]

theorem ReducesExactly.reduce (exact_ : p.ReducesExactly delta price remaining profit) :
    p.reduce delta price = .ok (p.remainder remaining price, profit) := by
  obtain ⟨gain, gross, gaining, closing, siding⟩ := exact_.profit
  simp [PaperPosition.reduce, remainder, gaining.ended, closing.ended, siding.ended,
    exact_.remaining.ended, bind, Except.bind, pure, Except.pure]

/-- An exact fill is what the account computes. -/
theorem FillsExactly.fill (exact_ : FillsExactly delta price current result) :
    PaperPosition.fill current delta price = .ok result := by
  cases exact_ with
  | opens => rfl
  | grows same exact_ =>
    simp only [PaperPosition.fill, same, if_true, exact_.grow]
    rfl
  | reduces other exact_ =>
    simp only [PaperPosition.fill, other, Bool.false_eq_true, if_false, exact_.reduce]

/-- A fill of the same side costs the position its quantity at its price. -/
theorem GrowsExactly.cost (exact_ : p.GrowsExactly delta price grown)
    (same : sameSide p.quantity delta = true) :
    grown.quantity.value * grown.entry.value =
      p.quantity.value * p.entry.value + delta.value * price.value := by
  obtain ⟨size, held, bought, cost, sized, holding, buying, costing, entering⟩ := exact_.entry
  have average := entering.value_mul
  rw [costing.worth, holding.worth, buying.worth, sized.worth, value_abs, value_abs] at average
  rw [exact_.quantity.worth]
  have sides := sameSide_iff.mp same
  rcases le_or_gt 0 p.quantity.value with long | short
  · rw [abs_of_nonneg long, abs_of_nonneg (sides.mp long)] at average
    linear_combination average
  · have sold : delta.value < 0 := not_le.mp (mt sides.mpr (not_le.mpr short))
    rw [abs_of_neg short, abs_of_neg sold] at average
    linear_combination -average

/-- The signed part of a position that a fill of the other side closes: all of the fill unless it
goes through zero, and then all of the position. -/
theorem signed_closed {q d : ℚ} (other : ¬ (0 ≤ q ↔ 0 ≤ d)) :
    min |d| |q| * (if 0 ≤ q then 1 else -1) = if 0 ≤ q + d ↔ 0 ≤ q then -d else q := by
  rcases le_or_gt 0 q with long | short
  · have sold : d < 0 := not_le.mp fun bought => other (iff_of_true long bought)
    rw [abs_of_nonneg long, abs_of_neg sold, if_pos long, mul_one]
    simp only [long, iff_true]
    split
    case isTrue within => exact min_eq_left (by linarith)
    case isFalse beyond => exact min_eq_right (by linarith [not_le.mp beyond])
  · have bought : 0 ≤ d := by
      by_contra sold
      exact other (iff_of_false (not_le.mpr short) sold)
    rw [abs_of_neg short, abs_of_nonneg bought, if_neg (not_le.mpr short)]
    simp only [not_le.mpr short, iff_false, not_le]
    split
    case isTrue within =>
      rw [min_eq_left (by linarith), mul_neg_one]
    case isFalse beyond =>
      rw [min_eq_right (by linarith [not_lt.mp beyond]), mul_neg_one, neg_neg]

theorem ReducesExactly.value_profit (exact_ : p.ReducesExactly delta price remaining profit) :
    profit.value = (price.value - p.entry.value) *
      (min |delta.value| |p.quantity.value| * if 0 ≤ p.quantity.value then 1 else -1) := by
  obtain ⟨gain, gross, gaining, closing, siding⟩ := exact_.profit
  rw [siding.worth, closing.worth, gaining.worth, value_min, value_abs, value_abs, mul_assoc]
  simp only [isNonneg_iff, apply_ite Decimal.value, value_one, value_negOne]

/-- A fill of the other side costs the position its quantity at its price and the profit. -/
theorem ReducesExactly.cost (exact_ : p.ReducesExactly delta price remaining profit)
    (other : sameSide p.quantity delta = false) :
    size (p.remainder remaining price) = p.quantity.value + delta.value ∧
      PaperPosition.cost (p.remainder remaining price) =
        p.quantity.value * p.entry.value + delta.value * price.value + profit.value := by
  have left := exact_.remaining.worth
  have sides : ¬ (0 ≤ p.quantity.value ↔ 0 ≤ delta.value) :=
    mt sameSide_iff.mpr (Bool.eq_false_iff.mp other)
  rw [exact_.value_profit, signed_closed sides]
  simp only [remainder, isZero_iff, sameSide_iff, left]
  split
  case isTrue closed =>
    -- The position is closed exactly, so that both ways to say what was closed agree.
    have opposite : delta.value = -p.quantity.value := by linarith
    refine ⟨closed.symm, ?_⟩
    rw [opposite, neg_neg, ite_self]
    simp only [PaperPosition.cost, Option.elim_none]
    ring
  case isFalse =>
    split
    · exact ⟨left, by simp only [PaperPosition.cost, Option.elim_some, left]; ring⟩
    · exact ⟨left, by simp only [PaperPosition.cost, Option.elim_some, left]; ring⟩

/-- What a fill changes, whichever way it goes. -/
theorem FillsExactly.balances (exact_ : FillsExactly delta price current result) :
    size result.1 = size current + delta.value ∧
      PaperPosition.cost result.1 =
        PaperPosition.cost current + delta.value * price.value + result.2.value := by
  cases exact_ with
  | opens => simp [size, PaperPosition.cost]
  | grows same exact_ =>
    refine ⟨exact_.quantity.worth, ?_⟩
    simpa [PaperPosition.cost] using exact_.cost same
  | reduces other exact_ => exact exact_.cost other

end PaperPosition

namespace PaperAccount

def entryPrice (a : PaperAccount) (symbol : String) : Decimal :=
  ((Keyed.find? symbol a.positions).map (·.entry)).getD .zero

theorem size_find? (a : PaperAccount) (symbol : String) :
    PaperPosition.size (Keyed.find? symbol a.positions) = (a.position symbol).value := by
  rw [position]
  cases Keyed.find? symbol a.positions <;> simp [PaperPosition.size]

theorem cost_find? (a : PaperAccount) (symbol : String) :
    PaperPosition.cost (Keyed.find? symbol a.positions) =
      (a.position symbol).value * (a.entryPrice symbol).value := by
  rw [position, entryPrice]
  cases Keyed.find? symbol a.positions <;> simp [PaperPosition.cost]

end PaperAccount

namespace Paper

/-- A fill with the quantity that it adds to the position of its symbol, negative when sold. -/
structure SignedFill where
  symbol : String
  quantity : Decimal
  price : Decimal

namespace SignedFill

def BooksExactly (f : SignedFill) (a : PaperAccount) : Prop :=
  ∃ position profit wallet realizedPnl,
    PaperPosition.FillsExactly f.quantity f.price (Keyed.find? f.symbol a.positions)
        (position, profit) ∧
      ExactSum a.wallet profit wallet ∧ ExactSum a.realizedPnl profit realizedPnl

def total (fills : List SignedFill) (symbol : String) : ℚ :=
  ((fills.filter (·.symbol = symbol)).map (·.quantity.value)).sum

/-- What was paid for the fills, less what was received. -/
def paid (fills : List SignedFill) : ℚ := (fills.map fun f => f.quantity.value * f.price.value).sum

theorem total_append (fills : List SignedFill) (f : SignedFill) (symbol : String) :
    total (fills ++ [f]) symbol =
      total fills symbol + if f.symbol = symbol then f.quantity.value else 0 := by
  by_cases same : f.symbol = symbol <;> simp [total, same]

theorem paid_append (fills : List SignedFill) (f : SignedFill) :
    paid (fills ++ [f]) = paid fills + f.quantity.value * f.price.value := by
  simp [paid]

end SignedFill

namespace Use

/-- The fill that a use of the account books, with the quantity that was admitted. -/
def signedFill? (u : Use) : Option SignedFill :=
  match u.fill?, u.step with
  | some _, .settle order price =>
    match u.before.admitted order price with
    | .ok (.ok delta) => some ⟨order.symbol, delta, price⟩
    | _ => none
  | _, _ => none

/-- Nothing overflows in a use of the account, and nothing rounds in the fill that it books. -/
structure Exact (u : Use) : Prop where
  answered : ¬ u.Faults
  booked : ∀ f ∈ u.signedFill?, f.BooksExactly u.before

inductive Books (u : Use) : Prop where
  | nothing (unfilled : u.signedFill? = none) (positions : u.after.positions = u.before.positions)
      (wallet : u.after.wallet = u.before.wallet)
      (realizedPnl : u.after.realizedPnl = u.before.realizedPnl)
  | fill {f : SignedFill} {position : Option PaperPosition} {profit : Decimal}
      (filled : u.signedFill? = some f)
      (exact_ : PaperPosition.FillsExactly f.quantity f.price
        (Keyed.find? f.symbol u.before.positions) (position, profit))
      (positions : u.after.positions = (u.before.setPosition f.symbol position).positions)
      (wallet : u.after.wallet.value = u.before.wallet.value + profit.value)
      (realizedPnl : u.after.realizedPnl.value = u.before.realizedPnl.value + profit.value)

theorem Exact.books_filled {a : PaperAccount} {order : Order} {price : Decimal} {ack : OrderAck}
    (exact_ : (Use.mk (.settle order price) a).Exact) (fresh : a.previousFill? order = none)
    (answered : (a.settle order price).1 = .ok (.ok ack)) :
    (Use.mk (.settle order price) a).Books := by
  have isFill := fill?_settle fresh answered
  have ended := PaperAccount.settle_settles a order price
  have after : (Use.mk (.settle order price) a).after = (a.settle order price).2 := rfl
  rw [answered] at ended
  generalize (a.settle order price).2 = b at ended after
  cases ended with
  | replayed known =>
    rw [fresh] at known
    cases known
  | @filled delta position profit wallet realizedPnl _ admitted filled paid booked =>
    have signed : (Use.mk (.settle order price) a).signedFill? =
        some ⟨order.symbol, delta, price⟩ := by
      simp only [signedFill?, isFill, admitted]
    obtain ⟨_, _, _, _, fills, paying, booking⟩ := exact_.booked _ signed
    obtain ⟨rfl, rfl⟩ := Prod.mk.inj (Except.ok.inj (fills.fill.symm.trans filled))
    obtain rfl := Except.ok.inj (paying.ended.symm.trans paid)
    obtain rfl := Except.ok.inj (booking.ended.symm.trans booked)
    refine .fill signed fills ?_ ?_ ?_
    · rw [after]
      rfl
    · rw [after]
      exact paying.worth
    · rw [after]
      exact booking.worth

theorem Exact.books {u : Use} (exact_ : u.Exact) : u.Books := by
  obtain ⟨step, a⟩ := u
  cases step with
  | wallet => exact .nothing rfl rfl rfl rfl
  | review => exact .nothing rfl rfl rfl rfl
  | setLeverage symbol leverage =>
    obtain ⟨leverages, same⟩ := a.setLeverage_leverages symbol leverage
    have after : (Use.mk (.setLeverage symbol leverage) a).after = { a with leverages } := same
    refine .nothing rfl ?_ ?_ ?_ <;> rw [after]
  | settle order price =>
    cases answer : (a.settle order price).1 with
    | error f => exact absurd ⟨order, price, f, rfl, answer⟩ exact_.answered
    | ok reply =>
      cases reply with
      | error e =>
        have same : (Use.mk (.settle order price) a).after = a := PaperAccount.settle_refused answer
        exact .nothing (by simp [signedFill?, fill?, answer]) (by rw [same]) (by rw [same])
          (by rw [same])
      | ok ack =>
        obtain ⟨known, same⟩ | ⟨fresh, _⟩ := PaperAccount.settle_ok answer
        · have same : (Use.mk (.settle order price) a).after = a := same
          exact .nothing (by simp [signedFill?, fill?, known]) (by rw [same]) (by rw [same])
            (by rw [same])
        · exact exact_.books_filled fresh answer

end Use

structure Balances (wallet : Decimal) (fills : List SignedFill) (a : PaperAccount) : Prop where
  symbols : (a.positions.map Prod.fst).Nodup
  position : ∀ symbol, (a.position symbol).value = SignedFill.total fills symbol
  realizedPnl : ∀ symbols : Finset String, (∀ f ∈ fills, f.symbol ∈ symbols) →
    a.realizedPnl.value =
      ∑ symbol ∈ symbols, (a.position symbol).value * (a.entryPrice symbol).value -
        SignedFill.paid fills
  wallet : a.wallet.value = wallet.value + a.realizedPnl.value

namespace Balances

variable {wallet : Decimal} {fills : List SignedFill} {a b : PaperAccount}

theorem new (wallet : Decimal) : Balances wallet [] { wallet } where
  symbols := List.nodup_nil
  position := by simp [PaperAccount.position, Keyed.find?, SignedFill.total]
  realizedPnl := by simp [PaperAccount.position, Keyed.find?, SignedFill.paid]
  wallet := by simp

theorem congr (balances : Balances wallet fills a) (symbols : (b.positions.map Prod.fst).Nodup)
    (positions : ∀ symbol, Keyed.find? symbol b.positions = Keyed.find? symbol a.positions)
    (money : b.wallet = a.wallet) (realizedPnl : b.realizedPnl = a.realizedPnl) :
    Balances wallet fills b := by
  have position : ∀ symbol, b.position symbol = a.position symbol := by
    intro symbol
    rw [PaperAccount.position, PaperAccount.position, positions]
  have entryPrice : ∀ symbol, b.entryPrice symbol = a.entryPrice symbol := by
    intro symbol
    rw [PaperAccount.entryPrice, PaperAccount.entryPrice, positions]
  refine ⟨symbols, ?_, ?_, ?_⟩
  · simpa only [position] using balances.position
  · simpa only [position, entryPrice, realizedPnl] using balances.realizedPnl
  · simpa only [money, realizedPnl] using balances.wallet

/-- A fill moves the position of its symbol and the cost of it, and no other. -/
theorem fill {f : SignedFill} {position : Option PaperPosition} {profit : Decimal}
    (balances : Balances wallet fills a)
    (exact_ : PaperPosition.FillsExactly f.quantity f.price (Keyed.find? f.symbol a.positions)
      (position, profit))
    (positions : b.positions = (a.setPosition f.symbol position).positions)
    (money : b.wallet.value = a.wallet.value + profit.value)
    (realizedPnl : b.realizedPnl.value = a.realizedPnl.value + profit.value) :
    Balances wallet (fills ++ [f]) b := by
  have stored : ∀ symbol, Keyed.find? symbol b.positions =
      if f.symbol = symbol then position else Keyed.find? symbol a.positions := by
    intro symbol
    rw [positions, PaperAccount.find?_setPosition]
  obtain ⟨size, cost⟩ := exact_.balances
  refine ⟨?symbols, ?position, ?realizedPnl, ?wallet⟩
  case symbols =>
    rw [positions]
    cases position with
    | none => exact Keyed.nodup_remove balances.symbols
    | some p => exact Keyed.nodup_put balances.symbols
  case position =>
    intro symbol
    rw [SignedFill.total_append, ← balances.position, ← b.size_find?, ← a.size_find?, stored]
    split
    case isTrue same => rw [← same, ← size]
    case isFalse => rw [add_zero]
  case realizedPnl =>
    intro symbols all
    have mine : f.symbol ∈ symbols := all f (by simp)
    have before := balances.realizedPnl symbols fun g member =>
      all g (List.mem_append_left _ member)
    simp only [← PaperAccount.cost_find?] at before ⊢
    -- The sum is taken apart at the symbol of the fill.
    rw [← Finset.add_sum_erase _ _ mine] at before ⊢
    have others : ∀ symbol ∈ symbols.erase f.symbol,
        PaperPosition.cost (Keyed.find? symbol b.positions) =
          PaperPosition.cost (Keyed.find? symbol a.positions) := by
      intro symbol member
      rw [stored, if_neg (Finset.ne_of_mem_erase member).symm]
    rw [Finset.sum_congr rfl others, stored, if_pos rfl, SignedFill.paid_append, realizedPnl,
      before]
    linarith
  case wallet =>
    rw [money, realizedPnl, balances.wallet, add_assoc]

theorem use {u : Use} (balances : Balances wallet fills u.before) (exact_ : u.Exact) :
    Balances wallet (fills ++ u.signedFill?.toList) u.after := by
  cases exact_.books with
  | nothing unfilled positions money realizedPnl =>
    rw [unfilled, Option.toList_none, List.append_nil]
    exact balances.congr (positions ▸ balances.symbols) (by simp [positions]) money realizedPnl
  | fill filled fills positions money realizedPnl =>
    rw [filled]
    exact balances.fill fills positions money realizedPnl

end Balances

namespace Traffic

variable {s t : Traffic} {wallet : Decimal}

def signedFills (s : Traffic) : List SignedFill := s.uses.filterMap Use.signedFill?

theorem moves_balance (balances : Balances wallet s.signedFills s.account) (move : Moves s t)
    (exact_ : ∀ u ∈ t.uses, u.Exact) : Balances wallet t.signedFills t.account := by
  cases move with
  | @use i c q next uses found =>
    have used := balances.use (exact_ ⟨q, s.account⟩ (by simp [put, Traffic.use]))
    rwa [signedFills, put, Traffic.use, List.filterMap_append]
  | reorder same =>
    have found := Keyed.find?_perm balances.symbols same
    exact balances.congr ((same.map Prod.fst).nodup_iff.mpr balances.symbols) found rfl rfl
  | begin => exact balances
  | hear => exact balances
  | finish => exact balances
  | abandon => exact balances

/-- However calls on a new account interleave: as long as no operation overflows and no booked fill
rounds, no money comes from nowhere or gets lost. -/
theorem cash_flow_balances (run : Runs { account := { wallet } } s)
    (exact_ : ∀ u ∈ s.uses, u.Exact) :
    (∀ symbol, (s.account.position symbol).value = SignedFill.total s.signedFills symbol) ∧
      (∀ symbols : Finset String, (∀ f ∈ s.signedFills, f.symbol ∈ symbols) →
        s.account.realizedPnl.value =
          ∑ symbol ∈ symbols,
              (s.account.position symbol).value * (s.account.entryPrice symbol).value -
            SignedFill.paid s.signedFills) ∧
      s.account.wallet.value = wallet.value + s.account.realizedPnl.value := by
  have balances : Balances wallet s.signedFills s.account := by
    induction run with
    | refl => exact .new wallet
    | step _ move ih =>
      exact moves_balance (ih fun u member => exact_ u (move.uses u member)) move exact_
  exact ⟨balances.position, balances.realizedPnl, balances.wallet⟩

end Traffic

theorem Use.Exact.review (order : Order) (a : PaperAccount) : (Use.mk (.review order) a).Exact where
  answered := by rintro ⟨_, _, _, ⟨⟩, _⟩
  booked := nofun

theorem Use.Exact.settle {a : PaperAccount} {order : Order} {price delta : Decimal} {ack : OrderAck}
    (answered : (a.settle order price).1 = .ok (.ok ack))
    (admitted : a.admitted order price = .ok (.ok delta))
    (books : SignedFill.BooksExactly ⟨order.symbol, delta, price⟩ a) :
    (Use.mk (.settle order price) a).Exact where
  answered := by
    rintro ⟨_, _, _, ⟨⟩, faulted⟩
    rw [answered] at faulted
    cases faulted
  booked := by
    intro f booked
    cases filled : (Use.mk (.settle order price) a).fill? <;>
      simp only [signedFill?, filled, admitted, Option.mem_def, Option.some.injEq,
        reduceCtorEq] at booked
    exact booked ▸ books

namespace Traffic

open PaperAccount (marketOrder)

def traded (fillCount : Nat) (wallet realizedPnl : UInt32) (quantity : Decimal) (entry : UInt32) :
    PaperAccount where
  wallet := .ofWord wallet
  realizedPnl := .ofWord realizedPnl
  positions := [("BTCUSDT", ⟨quantity, .ofWord entry⟩)]
  fillCount := fillCount

theorem opening_books :
    SignedFill.BooksExactly ⟨"BTCUSDT", .one, .ofWord 100⟩ { wallet := .ofWord 1000 } := by
  refine ⟨_, _, .ofWord 1000, .zero, .opens, ⟨?_, ?_⟩, ⟨?_, ?_⟩⟩
  all_goals with_unfolding_all rfl

theorem adding_books :
    SignedFill.BooksExactly ⟨"BTCUSDT", .one, .ofWord 300⟩ (traded 1 1000 0 .one 100) := by
  have grows : PaperPosition.GrowsExactly ⟨.one, .ofWord 100⟩ .one (.ofWord 300)
      ⟨.ofWord 2, .ofWord 200⟩ := by
    refine ⟨⟨?_, ?_⟩, .ofWord 2, .ofWord 100, .ofWord 300, .ofWord 400, ⟨?_, ?_⟩, ⟨?_, ?_⟩,
      ⟨?_, ?_⟩, ⟨?_, ?_⟩, ⟨?_, ?_⟩⟩
    all_goals with_unfolding_all rfl
  refine ⟨_, _, .ofWord 1000, .zero, .grows rfl grows, ⟨?_, ?_⟩, ⟨?_, ?_⟩⟩
  all_goals with_unfolding_all rfl

theorem turning_books :
    SignedFill.BooksExactly ⟨"BTCUSDT", -.ofWord 3, .ofWord 250⟩
      (traded 2 1000 0 (.ofWord 2) 200) := by
  have reduces : PaperPosition.ReducesExactly ⟨.ofWord 2, .ofWord 200⟩ (-.ofWord 3) (.ofWord 250)
      .negOne (.ofWord 100) := by
    refine ⟨⟨?_, ?_⟩, .ofWord 50, .ofWord 100, ⟨?_, ?_⟩, ⟨?_, ?_⟩, ⟨?_, ?_⟩⟩
    all_goals with_unfolding_all rfl
  refine ⟨_, _, .ofWord 1100, .ofWord 100, .reduces rfl reduces, ⟨?_, ?_⟩, ⟨?_, ?_⟩⟩
  all_goals with_unfolding_all rfl

/-- One unit is bought at a hundred, another at three hundred, and three are sold at two hundred and
fifty: one short is left, and the two long ones earned a hundred. -/
theorem turned_position_balances :
    ∃ s, Runs { account := { wallet := .ofWord 1000 } } s ∧ (∀ u ∈ s.uses, u.Exact) ∧
      s.account = traded 3 1100 100 .negOne 250 ∧
      s.signedFills = [⟨"BTCUSDT", .one, .ofWord 100⟩, ⟨"BTCUSDT", .one, .ofWord 300⟩,
        ⟨"BTCUSDT", -.ofWord 3, .ofWord 250⟩] ∧
      (∀ symbol, (s.account.position symbol).value = SignedFill.total s.signedFills symbol) ∧
      s.account.realizedPnl.value =
        ∑ symbol ∈ {"BTCUSDT"},
            (s.account.position symbol).value * (s.account.entryPrice symbol).value -
          SignedFill.paid s.signedFills ∧
      s.account.wallet.value = (Decimal.ofWord 1000).value + s.account.realizedPnl.value := by
  have opening : ({ wallet := .ofWord 1000 } : PaperAccount).settle (marketOrder .buy .one)
      (.ofWord 100) = (.ok (.ok ⟨"paper-1", some (.ofWord 100)⟩), traded 1 1000 0 .one 100) := by
    with_unfolding_all rfl
  have adding : (traded 1 1000 0 .one 100).settle (marketOrder .buy .one) (.ofWord 300) =
      (.ok (.ok ⟨"paper-2", some (.ofWord 300)⟩), traded 2 1000 0 (.ofWord 2) 200) := by
    with_unfolding_all rfl
  have turning : (traded 2 1000 0 (.ofWord 2) 200).settle (marketOrder .sell (.ofWord 3))
      (.ofWord 250) =
        (.ok (.ok ⟨"paper-3", some (.ofWord 250)⟩), traded 3 1100 100 .negOne 250) := by
    with_unfolding_all rfl
  obtain ⟨_, run, idle, found, uses₁⟩ :=
    Runs.order (.refl (s := { account := { wallet := .ofWord 1000 } })) rfl rfl _ rfl opening
  obtain ⟨_, run, idle, found, uses₂⟩ := run.order idle found _ rfl adding
  obtain ⟨s, run, _, found, uses₃⟩ := run.order idle found _ rfl turning
  have exact_ : ∀ u ∈ s.uses, u.Exact := by
    rw [uses₃, uses₂, uses₁]
    simp only [List.nil_append, List.cons_append, List.forall_mem_cons, List.not_mem_nil,
      false_implies, implies_true, and_true]
    refine ⟨.review _ _, .settle (congrArg Prod.fst opening) ?_ opening_books,
      .review _ _, .settle (congrArg Prod.fst adding) ?_ adding_books,
      .review _ _, .settle (congrArg Prod.fst turning) ?_ turning_books⟩
    all_goals with_unfolding_all rfl
  have fills : s.signedFills = [⟨"BTCUSDT", .one, .ofWord 100⟩, ⟨"BTCUSDT", .one, .ofWord 300⟩,
      ⟨"BTCUSDT", -.ofWord 3, .ofWord 250⟩] := by
    rw [signedFills, uses₃, uses₂, uses₁]
    with_unfolding_all rfl
  obtain ⟨position, realizedPnl, wallet⟩ := cash_flow_balances run exact_
  exact ⟨s, run, exact_, found, fills, position, realizedPnl {"BTCUSDT"} (by simp [fills]), wallet⟩

end Traffic

end Paper

end FuturesDesk
