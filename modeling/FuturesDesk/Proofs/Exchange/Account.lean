import FuturesDesk.Exchange.PaperAccount
import FuturesDesk.Proofs.Decimal.Rounding
import FuturesDesk.Proofs.Keyed
import FuturesDesk.Proofs.Result

/-! The paper account over all its runs. Leverages stay in their range, and what is stored is a
position: its size is not zero and its entry price not negative. How a fill and a settlement can end
is said once here, with every guard. -/
namespace FuturesDesk

open Decimal

theorem Decimal.ofWord_nonneg (n : UInt32) : 0 ≤ (ofWord n).value :=
  value_nonneg_iff.mpr (Int.natCast_nonneg _)

namespace PaperPosition

structure Sound (p : PaperPosition) : Prop where
  quantity : p.quantity.value ≠ 0
  entry : 0 ≤ p.entry.value

theorem sameSide_iff {a b : Decimal} : sameSide a b = true ↔ (0 ≤ a.value ↔ 0 ≤ b.value) := by
  rw [sameSide, decide_eq_true_iff, Bool.eq_iff_iff, isNonneg_iff, isNonneg_iff]

theorem grow_ok {p grown : PaperPosition} {delta price : Decimal}
    (ended : p.grow delta price = .ok grown) :
    p.quantity.add delta = .ok grown.quantity ∧
      ∃ size held bought cost, p.quantity.abs.add delta.abs = .ok size ∧
        p.quantity.abs.mul p.entry = .ok held ∧ delta.abs.mul price = .ok bought ∧
        held.add bought = .ok cost ∧ cost.div size = .ok grown.entry := by
  simp only [grow, bind_ok, pure_ok] at ended
  obtain ⟨size, sized, held, holding, bought, buying, cost, costing, entry, entering, quantity,
    adding, rfl⟩ := ended
  exact ⟨adding, size, held, bought, cost, sized, holding, buying, costing, entering⟩

def remainder (p : PaperPosition) (remaining price : Decimal) : Option PaperPosition :=
  if remaining.isZero then none
  else if sameSide remaining p.quantity then some ⟨remaining, p.entry⟩
  else some ⟨remaining, price⟩

/-- All that a reduction computes. -/
theorem reduce_computed {p : PaperPosition} {delta price profit : Decimal}
    {left : Option PaperPosition} (ended : p.reduce delta price = .ok (left, profit)) :
    ∃ gain gross remaining, price.sub p.entry = .ok gain ∧
      gain.mul (delta.abs.min p.quantity.abs) = .ok gross ∧
      gross.mul (if p.quantity.isNonneg then .one else .negOne) = .ok profit ∧
      p.quantity.add delta = .ok remaining ∧ left = p.remainder remaining price := by
  simp only [reduce, bind_ok, pure_ok] at ended
  obtain ⟨gain, gaining, gross, closing, _, siding, remaining, adding, same⟩ := ended
  obtain ⟨rfl, rfl⟩ := Prod.mk.inj same
  exact ⟨gain, gross, remaining, gaining, closing, siding, adding, rfl⟩

theorem reduce_ok {p : PaperPosition} {delta price profit : Decimal} {left : Option PaperPosition}
    (ended : p.reduce delta price = .ok (left, profit)) :
    ∃ remaining, p.quantity.add delta = .ok remaining ∧ left = p.remainder remaining price := by
  obtain ⟨_, _, remaining, _, _, _, adding, same⟩ := reduce_computed ended
  exact ⟨remaining, adding, same⟩

theorem grow_sound {p grown : PaperPosition} {delta price : Decimal} (sound : p.Sound)
    (same : sameSide p.quantity delta = true) (nonneg : 0 ≤ price.value)
    (ended : p.grow delta price = .ok grown) : grown.Sound := by
  obtain ⟨adding, size, held, bought, cost, sized, holding, buying, costing, entering⟩ :=
    grow_ok ended
  have side := sameSide_iff.mp same
  constructor
  · -- Rounding the larger size does not fall behind the old one.
    have sum := add_rounds adding
    rcases lt_or_gt_of_ne sound.quantity with short | long
    · have further := sum.ge_of_ge (a := p.quantity) (by
        have : delta.value < 0 := by
          rw [← not_le, ← side, not_le]
          exact short
        linarith)
      linarith
    · have further := sum.le_of_le (a := p.quantity) (by linarith [side.mp long.le])
      linarith
  · have heldNonneg := (mul_rounds holding).nonneg
      (mul_nonneg (by simp) sound.entry)
    have boughtNonneg := (mul_rounds buying).nonneg (mul_nonneg (by simp) nonneg)
    have costNonneg := (add_rounds costing).nonneg (add_nonneg heldNonneg boughtNonneg)
    have sizeNonneg := (add_rounds sized).nonneg (by
      rw [value_abs, value_abs]
      positivity)
    exact div_nonneg_of_nonneg entering costNonneg sizeNonneg

theorem remainder_sound {p : PaperPosition} {remaining price : Decimal} (sound : p.Sound)
    (nonneg : 0 ≤ price.value) : ∀ left ∈ p.remainder remaining price, left.Sound := by
  intro left found
  simp only [remainder] at found
  split at found
  · cases found
  case isFalse open_ =>
    have nonzero : remaining.value ≠ 0 := mt isZero_iff.mpr open_
    split at found
    · cases found
      exact ⟨nonzero, sound.entry⟩
    · cases found
      exact ⟨nonzero, nonneg⟩

theorem fill_sound {current after : Option PaperPosition} {delta price profit : Decimal}
    (sound : ∀ p ∈ current, p.Sound) (moved : delta.value ≠ 0) (nonneg : 0 ≤ price.value)
    (ended : fill current delta price = .ok (after, profit)) : ∀ p ∈ after, p.Sound := by
  cases current with
  | none =>
    obtain ⟨rfl, rfl⟩ : some ⟨delta, price⟩ = after ∧ Decimal.zero = profit := by
      simpa [fill] using ended
    rintro _ ⟨⟩
    exact ⟨moved, nonneg⟩
  | some p =>
    have held := sound p rfl
    simp only [fill] at ended
    split at ended
    case isTrue same =>
      obtain ⟨grown, growing, same'⟩ := bind_ok.mp ended
      obtain ⟨rfl, rfl⟩ := Prod.mk.inj (pure_ok.mp same')
      rintro _ ⟨⟩
      exact grow_sound held same nonneg growing
    case isFalse =>
      obtain ⟨remaining, _, rfl⟩ := reduce_ok ended
      exact remainder_sound held nonneg

end PaperPosition

namespace PaperAccount

/-- How settling an order at a price ends. A fault in the sums comes after the position is stored. -/
inductive Settles (a : PaperAccount) (order : Order) (price : Decimal) :
    Except Decimal.Fault (Except GatewayError OrderAck) → PaperAccount → Prop where
  | replayed {ack} (known : a.previousFill? order = some ack) :
      Settles a order price (.ok (.ok ack)) a
  | unchecked {f} (fresh : a.previousFill? order = none)
      (faulted : a.admitted order price = .error f) : Settles a order price (.error f) a
  | refused {e} (fresh : a.previousFill? order = none)
      (refused : a.admitted order price = .ok (.error e)) : Settles a order price (.ok (.error e)) a
  | unfilled {delta f} (fresh : a.previousFill? order = none)
      (admitted : a.admitted order price = .ok (.ok delta))
      (faulted : PaperPosition.fill (Keyed.find? order.symbol a.positions) delta price = .error f) :
      Settles a order price (.error f) a
  | unpaid {delta p profit f} (fresh : a.previousFill? order = none)
      (admitted : a.admitted order price = .ok (.ok delta))
      (filled : PaperPosition.fill (Keyed.find? order.symbol a.positions) delta price =
        .ok (p, profit))
      (faulted : a.wallet.add profit = .error f) :
      Settles a order price (.error f) (a.setPosition order.symbol p)
  | unbooked {delta p profit wallet f} (fresh : a.previousFill? order = none)
      (admitted : a.admitted order price = .ok (.ok delta))
      (filled : PaperPosition.fill (Keyed.find? order.symbol a.positions) delta price =
        .ok (p, profit))
      (paid : a.wallet.add profit = .ok wallet) (faulted : a.realizedPnl.add profit = .error f) :
      Settles a order price (.error f) { a.setPosition order.symbol p with wallet }
  | filled {delta p profit wallet realizedPnl} (fresh : a.previousFill? order = none)
      (admitted : a.admitted order price = .ok (.ok delta))
      (filled : PaperPosition.fill (Keyed.find? order.symbol a.positions) delta price =
        .ok (p, profit))
      (paid : a.wallet.add profit = .ok wallet)
      (booked : a.realizedPnl.add profit = .ok realizedPnl) :
      Settles a order price
        (.ok (.ok (acknowledge { a.setPosition order.symbol p with wallet, realizedPnl }
          order price).1))
        (acknowledge { a.setPosition order.symbol p with wallet, realizedPnl } order price).2

@[simp] theorem setPosition_wallet (a : PaperAccount) (symbol : String) (p : Option PaperPosition) :
    (a.setPosition symbol p).wallet = a.wallet := by
  cases p <;> rfl

@[simp] theorem setPosition_realizedPnl (a : PaperAccount) (symbol : String)
    (p : Option PaperPosition) : (a.setPosition symbol p).realizedPnl = a.realizedPnl := by
  cases p <;> rfl

@[simp] theorem setPosition_leverages (a : PaperAccount) (symbol : String)
    (p : Option PaperPosition) : (a.setPosition symbol p).leverages = a.leverages := by
  cases p <;> rfl

@[simp] theorem setPosition_fills (a : PaperAccount) (symbol : String)
    (p : Option PaperPosition) : (a.setPosition symbol p).fills = a.fills := by
  cases p <;> rfl

@[simp] theorem setPosition_fillCount (a : PaperAccount) (symbol : String)
    (p : Option PaperPosition) : (a.setPosition symbol p).fillCount = a.fillCount := by
  cases p <;> rfl

theorem settle_settles (a : PaperAccount) (order : Order) (price : Decimal) :
    Settles a order price (a.settle order price).1 (a.settle order price).2 := by
  simp only [settle]
  split
  case h_1 ack known => exact .replayed known
  case h_2 fresh =>
    split
    case h_1 f faulted => exact .unchecked fresh faulted
    case h_2 e refused => exact .refused fresh refused
    case h_3 delta admitted =>
      simp only [book, setPosition_wallet]
      cases filled : PaperPosition.fill (Keyed.find? order.symbol a.positions) delta price with
      | error f => exact .unfilled fresh admitted filled
      | ok result =>
        obtain ⟨p, profit⟩ := result
        cases paid : a.wallet.add profit with
        | error f =>
          simp only [paid]
          exact .unpaid fresh admitted filled paid
        | ok wallet =>
          have kept := setPosition_realizedPnl a order.symbol p
          cases booked : (a.setPosition order.symbol p).realizedPnl.add profit with
          | error f =>
            simp only [paid, booked]
            exact .unbooked fresh admitted filled paid (kept ▸ booked)
          | ok realizedPnl =>
            simp only [paid, booked]
            exact .filled fresh admitted filled paid (kept ▸ booked)

theorem settle_refused {a : PaperAccount} {order : Order} {price : Decimal} {e : GatewayError}
    (refused : (a.settle order price).1 = .ok (.error e)) : (a.settle order price).2 = a := by
  have ended := settle_settles a order price
  rw [refused] at ended
  generalize (a.settle order price).2 = after at ended ⊢
  cases ended
  rfl

theorem setLeverage_leverages (a : PaperAccount) (symbol : String) (leverage : UInt32) :
    ∃ leverages, (a.setLeverage symbol leverage).2 = { a with leverages } := by
  rw [setLeverage]
  split
  · exact ⟨_, rfl⟩
  · exact ⟨a.leverages, rfl⟩

theorem setLeverage_refused {a : PaperAccount} {symbol : String} {leverage : UInt32}
    {e : GatewayError} (refused : (a.setLeverage symbol leverage).1 = .error e) :
    (a.setLeverage symbol leverage).2 = a := by
  simp only [setLeverage] at refused ⊢
  split at refused
  · cases refused
  · rw [if_neg ‹_›]

theorem review_ok {a : PaperAccount} {order : Order} {ack : OrderAck}
    (reviewed : a.review order = some (.ok ack)) : a.previousFill? order = some ack := by
  simp only [review] at reviewed
  split at reviewed
  · cases reviewed
    assumption
  · split at reviewed <;> cases reviewed

theorem quantity_pos_of_review {a : PaperAccount} {order : Order}
    (reviewed : a.review order = none) : 0 < order.quantity.value := by
  simp only [review] at reviewed
  split at reviewed
  · cases reviewed
  · split at reviewed
    · cases reviewed
    case isFalse positive => exact not_le.mp (mt le_zero_iff_value.mpr positive)

/-- Whether an order that is not cut to the position opens one or adds to it. -/
def opens (a : PaperAccount) (order : Order) : Bool :=
  (a.position order.symbol).isZero ||
    PaperPosition.sameSide (a.position order.symbol) (signedQuantity order)

/-- How an order is admitted, by cases. -/
theorem admitted_eq (a : PaperAccount) (order : Order) (price : Decimal) :
    a.admitted order price =
      if order.reduceOnly then
        if a.opens order then .ok (.error (.rejected notReducingMessage))
        else .ok (.ok (if (a.position order.symbol).abs < (signedQuantity order).abs then
          -a.position order.symbol else signedQuantity order))
      else if a.opens order then do
        let required ← a.requiredMargin order.symbol (signedQuantity order) price
        let available ← a.wallet.sub (← a.usedMargin)
        if available < required then return .error (.rejected (marginMessage required available))
        else return .ok (signedQuantity order)
      else .ok (.ok (signedQuantity order)) := rfl

inductive Admits (a : PaperAccount) (order : Order) (price : Decimal) : Decimal → Prop where
  | reduces (limited : order.reduceOnly = true) (closing : a.opens order = false) :
      Admits a order price
        (if (a.position order.symbol).abs < (signedQuantity order).abs then
          -a.position order.symbol
        else signedQuantity order)
  | opens {required used available} (free : order.reduceOnly = false)
      (opening : a.opens order = true)
      (margin : a.requiredMargin order.symbol (signedQuantity order) price = .ok required)
      (held : a.usedMargin = .ok used) (left : a.wallet.sub used = .ok available)
      (covered : ¬ available < required) : Admits a order price (signedQuantity order)
  | closes (free : order.reduceOnly = false) (closing : a.opens order = false) :
      Admits a order price (signedQuantity order)

theorem admits_of_admitted {a : PaperAccount} {order : Order} {price delta : Decimal}
    (admitted : a.admitted order price = .ok (.ok delta)) : Admits a order price delta := by
  rw [admitted_eq] at admitted
  cases limited : order.reduceOnly <;> cases opening : a.opens order <;>
    simp only [limited, opening, if_true, if_false, Bool.false_eq_true, bind_ok] at admitted
  · cases admitted
    exact .closes limited opening
  · obtain ⟨required, margin, used, held, available, left, checked⟩ := admitted
    split at checked
    · cases checked
    case isFalse covered =>
      cases checked
      exact .opens limited opening margin held left covered
  · cases admitted
    exact .reduces limited opening
  · cases admitted

/-- An order against the position that is not cut to it is taken without a look at the margin. -/
theorem admitted_of_closes {a : PaperAccount} {order : Order} (price : Decimal)
    (free : order.reduceOnly = false) (closing : a.opens order = false) :
    a.admitted order price = .ok (.ok (signedQuantity order)) := by
  rw [admitted_eq, free, closing]
  rfl

@[simp] theorem abs_signedQuantity (order : Order) :
    |(signedQuantity order).value| = |order.quantity.value| := by
  cases side : order.side <;> simp [signedQuantity, side]

theorem size_signedQuantity {order : Order} (ordered : 0 < order.quantity.value) :
    |(signedQuantity order).value| = order.quantity.value := by
  rw [abs_signedQuantity, abs_of_pos ordered]

theorem position_of_find? {a : PaperAccount} {symbol : String} {p : PaperPosition}
    (held : Keyed.find? symbol a.positions = some p) : a.position symbol = p.quantity := by
  simp [position, held]

theorem position_ne_zero {a : PaperAccount} {order : Order} (closing : a.opens order = false) :
    (a.position order.symbol).value ≠ 0 := by
  intro zero_
  simp [opens, isZero_iff.mpr zero_] at closing

theorem admits_ne_zero {a : PaperAccount} {order : Order} {price delta : Decimal}
    (positive : 0 < order.quantity.value) (admits : Admits a order price delta) :
    delta.value ≠ 0 := by
  have moved : (signedQuantity order).value ≠ 0 := by
    rw [← abs_pos, abs_signedQuantity, abs_pos]
    exact positive.ne'
  cases admits with
  | reduces _ closing =>
    split
    · simpa using position_ne_zero closing
    · exact moved
  | opens => exact moved
  | closes => exact moved

/-- The account of a run: it begins with a wallet and nothing else, takes leverages, and settles
orders that passed the review at some time before. Its positions have no order of their own. -/
inductive Reachable : PaperAccount → Prop where
  | new (wallet : Decimal) : Reachable { wallet }
  | setLeverage {a : PaperAccount} (run : Reachable a) (symbol : String) (leverage : UInt32) :
      Reachable (a.setLeverage symbol leverage).2
  | settle {a earlier : PaperAccount} {order : Order} {price : Decimal} (run : Reachable a)
      (reviewed : earlier.review order = none) (positive : .zero < price) :
      Reachable (a.settle order price).2
  | reordered {a : PaperAccount} {positions : List (String × PaperPosition)} (run : Reachable a)
      (same : positions.Perm a.positions) : Reachable { a with positions }

structure Sound (a : PaperAccount) : Prop where
  symbols : (a.positions.map Prod.fst).Nodup
  positions : ∀ entry ∈ a.positions, entry.2.Sound
  leverages : ∀ entry ∈ a.leverages, 1 ≤ entry.2 ∧ entry.2 ≤ 125

theorem Sound.setPosition {a : PaperAccount} (sound : a.Sound) (symbol : String)
    {p : Option PaperPosition} (fits : ∀ q ∈ p, q.Sound) : (a.setPosition symbol p).Sound := by
  cases p with
  | none =>
    refine ⟨Keyed.nodup_remove sound.symbols, ?_, sound.leverages⟩
    intro entry member
    exact sound.positions entry (List.mem_filter.mp member).1
  | some q =>
    refine ⟨Keyed.nodup_put sound.symbols, ?_, sound.leverages⟩
    intro entry member
    rcases Keyed.mem_put member with rfl | old
    · exact fits q rfl
    · exact sound.positions entry old

theorem settle_sound {a : PaperAccount} {order : Order} {price : Decimal} (sound : a.Sound)
    (ordered : 0 < order.quantity.value) (positive : .zero < price) :
    (a.settle order price).2.Sound := by
  have stored : ∀ {delta p profit}, a.admitted order price = .ok (.ok delta) →
      PaperPosition.fill (Keyed.find? order.symbol a.positions) delta price = .ok (p, profit) →
      (a.setPosition order.symbol p).Sound := by
    intro delta p profit admitted filled
    have held : ∀ q ∈ Keyed.find? order.symbol a.positions, q.Sound :=
      fun q found => sound.positions _ (Keyed.mem_of_find? found)
    exact sound.setPosition _ (PaperPosition.fill_sound held
      (admits_ne_zero ordered (admits_of_admitted admitted)) (zero_lt_iff_value.mp positive).le
      filled)
  have ended := settle_settles a order price
  generalize (a.settle order price).1 = result, (a.settle order price).2 = after at ended ⊢
  cases ended with
  | replayed => exact sound
  | unchecked => exact sound
  | refused => exact sound
  | unfilled => exact sound
  | unpaid _ admitted filled _ => exact stored admitted filled
  | unbooked _ admitted filled _ _ =>
    obtain ⟨symbols, positions, leverages⟩ := stored admitted filled
    exact ⟨symbols, positions, leverages⟩
  | filled _ admitted filled _ _ =>
    obtain ⟨symbols, positions, leverages⟩ := stored admitted filled
    exact ⟨symbols, positions, leverages⟩

/-- Every reachable account is sound. -/
theorem Reachable.sound {a : PaperAccount} (run : Reachable a) : a.Sound := by
  induction run with
  | new wallet => exact ⟨by simp, by simp, by simp⟩
  | setLeverage _ symbol leverage ih =>
    simp only [PaperAccount.setLeverage]
    split
    case isTrue within =>
      refine ⟨ih.symbols, ih.positions, ?_⟩
      intro entry member
      rcases Keyed.mem_put member with rfl | old
      · exact within
      · exact ih.leverages entry old
    case isFalse => exact ih
  | settle _ reviewed positive ih =>
    exact settle_sound ih (quantity_pos_of_review reviewed) positive
  | reordered _ same ih =>
    refine ⟨?_, ?_, ih.leverages⟩
    · exact (same.map Prod.fst).nodup_iff.mpr ih.symbols
    · intro entry member
      exact ih.positions entry (same.mem_iff.mp member)

end PaperAccount

end FuturesDesk
