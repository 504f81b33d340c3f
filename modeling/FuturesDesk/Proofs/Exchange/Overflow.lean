import FuturesDesk.Proofs.Decimal.Division
import FuturesDesk.Proofs.Exchange.PositionOrder

/-! Where an order overflows. Each operation on the way of an order is listed here, with the exact
result that is too large for a decimal. What an operation before it has computed already, or what
lies between two decimals, cannot overflow and is left out. -/
namespace FuturesDesk
open Decimal

namespace PaperPosition
variable {p : PaperPosition} {delta price size held bought : Decimal} {cause : Fault}

/-- A position that grows has a size to divide by. -/
theorem Sound.size_pos (sound : p.Sound) (sized : p.quantity.abs.add delta.abs = .ok size) :
    0 < size.value := by
  have larger := (add_rounds sized).le_of_le (a := p.quantity.abs)
    (le_add_of_nonneg_right (by rw [value_abs]; exact abs_nonneg _))
  rw [value_abs] at larger
  exact (abs_pos.mpr sound.quantity).trans_le larger

theorem abs_add_of_sameSide (same : sameSide p.quantity delta = true) :
    |p.quantity.value + delta.value| = |p.quantity.value| + |delta.value| := by
  have sides := sameSide_iff.mp same
  rw [abs_add_eq_add_abs_iff]
  rcases le_or_gt 0 p.quantity.value with long | short
  · exact .inl ⟨long, sides.mp long⟩
  · exact .inr ⟨short.le, (not_le.mp (mt sides.mpr (not_le.mpr short))).le⟩

/-- Where the growth of a position overflows, once its cost and that of the fill are known. -/
inductive GrowthOverflows (p : PaperPosition) (delta price : Decimal) : Fault → Prop where
  | size (beyond : Beyond (p.quantity.value + delta.value)) :
      GrowthOverflows p delta price .addition
  | cost {held bought : Decimal} (holding : p.quantity.abs.mul p.entry = .ok held)
      (buying : delta.abs.mul price = .ok bought) (beyond : Beyond (held.value + bought.value)) :
      GrowthOverflows p delta price .addition
  | average {size held bought cost : Decimal} (sized : p.quantity.abs.add delta.abs = .ok size)
      (holding : p.quantity.abs.mul p.entry = .ok held) (buying : delta.abs.mul price = .ok bought)
      (costing : held.add bought = .ok cost)
      (large : (coefficientBound : ℚ) - 10 ^ 9 < |cost.value / size.value|) :
      GrowthOverflows p delta price .division

theorem grow_overflows (sound : p.Sound) (same : sameSide p.quantity delta = true)
    (holding : p.quantity.abs.mul p.entry = .ok held) (buying : delta.abs.mul price = .ok bought)
    (failed : p.grow delta price = .error cause) : p.GrowthOverflows delta price cause := by
  simp only [grow, holding, buying, bind_error, Except.ok.injEq, reduceCtorEq, false_or,
    exists_eq_left'] at failed
  rcases failed with sized | ⟨size, sized, rest⟩
  · rw [add_error_iff, value_abs, value_abs, ← abs_add_of_sameSide same] at sized
    obtain ⟨rfl, beyond⟩ := sized
    exact .size (beyond_abs.mp beyond)
  rcases rest with costing | ⟨cost, costing, rest⟩
  · obtain ⟨rfl, beyond⟩ := add_error_iff.mp costing
    exact .cost holding buying beyond
  rcases rest with averaging | ⟨entry, _, rest⟩
  · rcases div_error averaging with ⟨_, nothing⟩ | ⟨rfl, large⟩
    · exact absurd nothing (sound.size_pos sized).ne'
    · exact .average sized holding buying costing large
  · rcases rest with adding | ⟨quantity, _, ended⟩
    · obtain ⟨rfl, beyond⟩ := add_error_iff.mp adding
      exact .size beyond
    · cases ended

/-- A reduction overflows in its profit only. -/
theorem reduce_overflows (sound : p.Sound) (positive : 0 ≤ price.value)
    (against : PaperAccount.Opposed p.quantity delta)
    (failed : p.reduce delta price = .error cause) : cause = .multiplication ∧
      ∃ gain, price.sub p.entry = .ok gain ∧
        Beyond (gain.value * min |delta.value| |p.quantity.value|) := by
  simp only [reduce, bind_error] at failed
  rcases failed with gaining | ⟨gain, gaining, rest⟩
  · -- The gain lies between the two prices.
    have within : ¬ Beyond (price.value - p.entry.value) := by
      apply not_beyond_between (a := -p.entry) (b := price)
      · rw [value_neg]
        linarith
      · linarith [sound.entry]
    exact absurd (sub_error_iff.mp gaining).2 within
  rcases rest with closing | ⟨gross, closing, rest⟩
  · rw [mul_error_iff, value_min, value_abs, value_abs] at closing
    exact ⟨closing.1, gain, gaining, closing.2⟩
  rcases rest with siding | ⟨profit, siding, rest⟩
  · have within : ¬ Beyond gross.value := not_beyond_value gross
    have beyond := (mul_error_iff.mp siding).2
    refine absurd (beyond.mono ?_) within
    split <;> simp
  · rcases rest with adding | ⟨remaining, _, ended⟩
    · refine absurd (add_error_iff.mp adding).2 ?_
      rcases against with ⟨short, buys⟩ | ⟨long, sells⟩
      · exact not_beyond_between (a := p.quantity) (b := delta) (by linarith) (by linarith)
      · exact not_beyond_between (a := delta) (b := p.quantity) (by linarith) (by linarith)
    · cases ended

end PaperPosition

namespace PaperAccount
variable {a : PaperAccount} {order : Order} {price delta profit : Decimal} {symbol : String}
  {p : PaperPosition} {left : Option PaperPosition} {cause : Fault}

/-- The leverage that an account divides by is a whole number, and not zero. -/
theorem Sound.leverage (sound : a.Sound) (symbol : String) :
    ∃ n : UInt32, 1 ≤ n ∧ n ≤ 125 ∧ a.leverage symbol = .ofWord n := by
  rw [PaperAccount.leverage]
  cases found : Keyed.find? symbol a.leverages with
  | none => exact ⟨1, by decide, by decide, rfl⟩
  | some n =>
    obtain ⟨least, most⟩ := sound.leverages _ (Keyed.mem_of_find? found)
    exact ⟨n, least, most, rfl⟩

/-- A margin overflows in the cost of its quantity only. -/
theorem requiredMargin_error (sound : a.Sound) {quantity : Decimal}
    (failed : a.requiredMargin symbol quantity price = .error cause) :
    cause = .multiplication ∧ Beyond (|quantity.value| * price.value) := by
  rw [requiredMargin, bind_error] at failed
  rcases failed with costing | ⟨cost, _, dividing⟩
  · rw [mul_error_iff, value_abs] at costing
    exact costing
  · obtain ⟨n, least, _, same⟩ := sound.leverage symbol
    obtain ⟨margin, divided⟩ := div_ofWord cost least
    rw [same, divided] at dividing
    cases dividing

/-- Where the sum of the margins overflows: in the cost of a position, or as its margin is added to
those before it. -/
inductive UsedOverflows (a : PaperAccount) : Fault → Prop where
  | cost {symbol : String} {p : PaperPosition} (held : (symbol, p) ∈ a.positions)
      (beyond : Beyond (|p.quantity.value| * p.entry.value)) : UsedOverflows a .multiplication
  | sum {front rest : List (String × PaperPosition)} {symbol : String} {p : PaperPosition}
      {before margin : Decimal} (visited : a.positions = front ++ (symbol, p) :: rest)
      (summed : { a with positions := front }.usedMargin = .ok before)
      (taken : a.marginOf symbol p = .ok margin) (beyond : Beyond (before.value + margin.value)) :
      UsedOverflows a .addition

theorem usedMargin_overflows (sound : a.Sound) (failed : a.usedMargin = .error cause) :
    a.UsedOverflows cause := by
  obtain ⟨front, ⟨symbol, p⟩, rest, before, visited, summed, stopped⟩ := foldlM_error failed
  rcases bind_error.mp stopped with taking | ⟨margin, taken, adding⟩
  · have failed : a.requiredMargin symbol p.quantity p.entry = .error cause := taking
    have held : (symbol, p) ∈ a.positions := by simp [visited]
    obtain ⟨rfl, beyond⟩ := requiredMargin_error sound failed
    exact .cost held beyond
  · obtain ⟨rfl, beyond⟩ := add_error_iff.mp adding
    exact .sum visited summed taken beyond

theorem usedMargin_nonneg (sound : a.Sound) {used : Decimal} (held : a.usedMargin = .ok used) :
    0 ≤ used.value := by
  obtain ⟨ms, made, summed⟩ := usedMargin_ok_iff.mp held
  exact (sum_strays (margins_nonneg sound made) summed).nonneg

/-- Where the settlement of an order overflows: in the look at the margin or in the growth of the
position if it opens or adds, else in the profit and in the sums that take it up. -/
inductive Overflows (a : PaperAccount) (order : Order) (price : Decimal) : Fault → Prop where
  | required (expands : a.Expands order) (beyond : Beyond (order.quantity.value * price.value)) :
      Overflows a order price .multiplication
  | used {cause : Fault} (expands : a.Expands order) (overflows : a.UsedOverflows cause) :
      Overflows a order price cause
  | available {used : Decimal} (expands : a.Expands order) (held : a.usedMargin = .ok used)
      (beyond : Beyond (a.wallet.value - used.value)) : Overflows a order price .subtraction
  | grows {p : PaperPosition} {cause : Fault} (expands : a.Expands order)
      (held : Keyed.find? order.symbol a.positions = some p)
      (overflows : p.GrowthOverflows (signedQuantity order) price cause) :
      Overflows a order price cause
  | profit {p : PaperPosition} {gain : Decimal} (closing : a.opens order = false)
      (held : Keyed.find? order.symbol a.positions = some p)
      (gaining : price.sub p.entry = .ok gain)
      (beyond : Beyond (gain.value * min order.quantity.value |p.quantity.value|)) :
      Overflows a order price .multiplication
  | wallet {p : PaperPosition} {delta profit : Decimal} {left : Option PaperPosition}
      (closing : a.opens order = false) (held : Keyed.find? order.symbol a.positions = some p)
      (admitted : a.admitted order price = .ok (.ok delta))
      (reduced : p.reduce delta price = .ok (left, profit))
      (beyond : Beyond (a.wallet.value + profit.value)) : Overflows a order price .addition
  | realizedPnl {p : PaperPosition} {delta profit : Decimal} {left : Option PaperPosition}
      (closing : a.opens order = false) (held : Keyed.find? order.symbol a.positions = some p)
      (admitted : a.admitted order price = .ok (.ok delta))
      (reduced : p.reduce delta price = .ok (left, profit))
      (beyond : Beyond (a.realizedPnl.value + profit.value)) : Overflows a order price .addition

theorem Overflows.ne_divisionByZero (overflows : a.Overflows order price cause) :
    cause ≠ .divisionByZero := by
  cases overflows with
  | used _ overflows => cases overflows <;> nofun
  | grows _ _ overflows => cases overflows <;> nofun
  | _ => nofun

theorem admitted_overflows (sound : a.Sound) (ordered : 0 < order.quantity.value)
    (faulted : a.admitted order price = .error cause) : a.Overflows order price cause := by
  rw [admitted_eq] at faulted
  cases limited : order.reduceOnly with
  | true =>
    rw [limited, if_pos rfl] at faulted
    split at faulted <;> cases faulted
  | false =>
    cases opening : a.opens order with
    | false =>
      rw [limited, opening] at faulted
      cases faulted
    | true =>
      simp only [limited, opening, Bool.false_eq_true, if_false, if_true, bind_error] at faulted
      rcases faulted with costing | ⟨required, _, rest⟩
      · obtain ⟨rfl, beyond⟩ := requiredMargin_error sound costing
        rw [size_signedQuantity ordered] at beyond
        exact .required ⟨limited, opening⟩ beyond
      rcases rest with holding | ⟨used, held, rest⟩
      · exact .used ⟨limited, opening⟩ (usedMargin_overflows sound holding)
      rcases rest with leaving | ⟨available, _, checked⟩
      · obtain ⟨rfl, beyond⟩ := sub_error_iff.mp leaving
        exact .available ⟨limited, opening⟩ held beyond
      · split at checked <;> cases checked

/-- An order against a position fills against it, at most its quantity and at most all of it. -/
theorem Admits.against (admits : Admits a order price delta) (ordered : 0 < order.quantity.value)
    (closing : a.opens order = false) :
    ∃ p, Keyed.find? order.symbol a.positions = some p ∧ Opposed p.quantity delta ∧
      min |delta.value| |p.quantity.value| = min order.quantity.value |p.quantity.value| := by
  have opposed := signed_against ordered (against_of_closing ordered closing)
  have quantity := size_signedQuantity ordered
  obtain ⟨p, held, size⟩ := held_of_opposed opposed
  rw [size] at opposed
  refine ⟨p, held, ?_⟩
  cases admits with
  | reduces =>
    obtain ⟨opposite, limit⟩ := opposed.cut
    rw [size]
    refine ⟨opposite, ?_⟩
    rw [limit, quantity, min_assoc, min_self]
  | opens _ opening => cases opening.symm.trans closing
  | closes => exact ⟨opposed, by rw [quantity]⟩

theorem fill_overflows (sound : a.Sound) (ordered : 0 < order.quantity.value)
    (positive : .zero < price) (admits : Admits a order price delta)
    (faulted : PaperPosition.fill (Keyed.find? order.symbol a.positions) delta price =
      .error cause) : a.Overflows order price cause := by
  cases opening : a.opens order with
  | false =>
    obtain ⟨p, held, opposed, size⟩ := admits.against ordered opening
    have stored := sound.positions _ (Keyed.mem_of_find? held)
    rw [held, fill_opposed opposed] at faulted
    obtain ⟨rfl, gain, gaining, beyond⟩ :=
      PaperPosition.reduce_overflows stored (zero_lt_iff_value.mp positive).le opposed faulted
    rw [size] at beyond
    exact .profit opening held gaining beyond
  | true =>
    cases admits with
    | reduces _ closing => cases opening.symm.trans closing
    | closes _ closing => cases opening.symm.trans closing
    | opens free _ margin summed =>
      cases held : Keyed.find? order.symbol a.positions with
      | none =>
        rw [held] at faulted
        cases faulted
      | some p =>
        have member := Keyed.mem_of_find? held
        have same := sameSide_of_opens sound opening held
        simp only [held, PaperPosition.fill, same, if_true, bind_error] at faulted
        rcases faulted with growing | ⟨_, _, ended⟩
        · -- Both costs were computed when the margin was looked at.
          obtain ⟨bought, buying, _⟩ := bind_ok.mp margin
          obtain ⟨ms, made, _⟩ := usedMargin_ok_iff.mp summed
          obtain ⟨taken, taking⟩ := mapM_completes.mp ⟨ms, made⟩ _ member
          obtain ⟨cost, holding, _⟩ := bind_ok.mp taking
          exact .grows ⟨free, opening⟩ held
            (PaperPosition.grow_overflows (sound.positions _ member) same holding buying growing)
        · cases ended

/-- A fill earns nothing unless it is against a position. -/
theorem fill_earns (sound : a.Sound) (ordered : 0 < order.quantity.value)
    (admits : Admits a order price delta)
    (filled : PaperPosition.fill (Keyed.find? order.symbol a.positions) delta price =
      .ok (left, profit)) : profit = .zero ∨ a.opens order = false ∧
        ∃ p, Keyed.find? order.symbol a.positions = some p ∧
          p.reduce delta price = .ok (left, profit) := by
  cases opening : a.opens order with
  | false =>
    obtain ⟨p, held, opposed, _⟩ := admits.against ordered opening
    rw [held, fill_opposed opposed] at filled
    exact .inr ⟨rfl, p, held, filled⟩
  | true =>
    cases admits with
    | reduces _ closing => cases opening.symm.trans closing
    | closes _ closing => cases opening.symm.trans closing
    | opens => exact .inl (fill_opening sound opening filled)

/-- An order that cannot be settled overflows somewhere. -/
theorem settle_overflows (sound : a.Sound) (ordered : 0 < order.quantity.value)
    (positive : .zero < price) (faulted : (a.settle order price).1 = .error cause) :
    a.Overflows order price cause := by
  have adds_zero : ∀ d : Decimal, d.add .zero ≠ .error cause := by
    intro d failed
    apply not_beyond_value d
    simpa using (add_error_iff.mp failed).2
  have ended := settle_settles a order price
  rw [faulted] at ended
  generalize (a.settle order price).2 = after at ended
  cases ended with
  | unchecked _ faulted => exact admitted_overflows sound ordered faulted
  | unfilled _ admitted faulted =>
    exact fill_overflows sound ordered positive (admits_of_admitted admitted) faulted
  | unpaid _ admitted filled faulted =>
    rcases fill_earns sound ordered (admits_of_admitted admitted) filled with
      rfl | ⟨closing, p, held, reduced⟩
    · exact absurd faulted (adds_zero a.wallet)
    · obtain ⟨rfl, beyond⟩ := add_error_iff.mp faulted
      exact .wallet closing held admitted reduced beyond
  | unbooked _ admitted filled _ faulted =>
    rcases fill_earns sound ordered (admits_of_admitted admitted) filled with
      rfl | ⟨closing, p, held, reduced⟩
    · exact absurd faulted (adds_zero a.realizedPnl)
    · obtain ⟨rfl, beyond⟩ := add_error_iff.mp faulted
      exact .realizedPnl closing held admitted reduced beyond

end PaperAccount

end FuturesDesk
