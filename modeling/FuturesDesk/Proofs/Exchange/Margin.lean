import FuturesDesk.Proofs.Exchange.Account

/-! Margin for what an order opens. An order that opens a position or adds to one is taken only if
the wallet covers its margin beside the margin of all other positions. An order that goes through
zero to the other side is taken without a look at the wallet. -/
namespace FuturesDesk.PaperAccount
open Decimal

def othersMargin (a : PaperAccount) (symbol : String) : Except Fault Decimal :=
  { a with positions := Keyed.remove symbol a.positions }.usedMargin

/-- The wallet covers the margin of a quantity at a price beside that of the other symbols. -/
def Covers (a : PaperAccount) (symbol : String) (quantity price : Decimal) : Prop :=
  ∃ required others available, a.requiredMargin symbol quantity price = .ok required ∧
    a.othersMargin symbol = .ok others ∧ a.wallet.sub others = .ok available ∧ required ≤ available

/-- A position is larger than before or has the opposite sign. -/
def Enlarges (old new : Decimal) : Prop :=
  old.abs < new.abs ∨ old < .zero ∧ .zero < new ∨ .zero < old ∧ new < .zero

/-- An order for more than the position, against it and not limited to it. -/
structure Flips (a : PaperAccount) (order : Order) : Prop where
  free : order.reduceOnly = false
  against : a.position order.symbol < .zero ∧ order.side = .buy ∨
    .zero < a.position order.symbol ∧ order.side = .sell
  beyond : (a.position order.symbol).abs < order.quantity

/-- A sum of terms that are not negative does not grow when terms are left out. -/
theorem foldlM_filter_le {ι : Type} {term : ι → Except Fault Decimal} (keep : ι → Bool)
    {entries : List ι} (nonneg : ∀ entry ∈ entries, ∀ m, term entry = .ok m → 0 ≤ m.value)
    {sum fewer total : Decimal} (start : 0 ≤ fewer.value ∧ fewer.value ≤ sum.value)
    (summed : entries.foldlM (fun sum entry => do sum.add (← term entry)) sum = .ok total) :
    ∃ rest, (entries.filter keep).foldlM (fun sum entry => do sum.add (← term entry)) fewer =
      .ok rest ∧ 0 ≤ rest.value ∧ rest.value ≤ total.value := by
  induction entries generalizing sum fewer with
  | nil =>
    obtain rfl := pure_ok.mp summed
    exact ⟨fewer, rfl, start⟩
  | cons entry entries ih =>
    obtain ⟨next, added, summed⟩ := bind_ok.mp summed
    obtain ⟨m, found, adding⟩ := bind_ok.mp added
    have positive := nonneg entry List.mem_cons_self m found
    have rest := fun e member => nonneg e (List.mem_cons_of_mem _ member)
    have exact_ := add_rounds adding
    rw [List.filter_cons]
    split
    · obtain ⟨less, adding'⟩ := add_ok (a := fewer) (b := m) exact_ (by
        rw [abs_of_nonneg (by linarith), abs_of_nonneg (by linarith)]
        linarith)
      have low := add_rounds adding'
      obtain ⟨total', summed', bounds⟩ := ih rest
        ⟨low.nonneg (by linarith), low.mono exact_ (by linarith)⟩ summed
      refine ⟨total', ?_, bounds⟩
      rw [List.foldlM_cons, found]
      simpa [bind, Except.bind, adding'] using summed'
    · exact ih rest ⟨start.1, start.2.trans (exact_.le_of_le (by linarith))⟩ summed

theorem marginOf_nonneg {a : PaperAccount} {symbol : String} {p : PaperPosition} {m : Decimal}
    (sound : p.Sound) (found : a.marginOf symbol p = .ok m) : 0 ≤ m.value := by
  obtain ⟨cost, product, quotient⟩ := bind_ok.mp found
  have costNonneg := (mul_rounds product).nonneg (mul_nonneg (by simp) sound.entry)
  exact div_nonneg_of_nonneg quotient costNonneg (ofWord_nonneg _)

theorem othersMargin_le {a : PaperAccount} {used : Decimal} (sound : a.Sound) (symbol : String)
    (held : a.usedMargin = .ok used) :
    ∃ others, a.othersMargin symbol = .ok others ∧ 0 ≤ others.value ∧ others.value ≤ used.value := by
  have nonneg : ∀ entry ∈ a.positions, ∀ m, a.marginOf entry.1 entry.2 = .ok m → 0 ≤ m.value :=
    fun entry member m found => marginOf_nonneg (sound.positions entry member) found
  exact foldlM_filter_le (·.1 ≠ symbol) nonneg ⟨by simp, le_rfl⟩ held

theorem position_setPosition (a : PaperAccount) (symbol : String) (p : Option PaperPosition) :
    (a.setPosition symbol p).position symbol = (p.map (·.quantity)).getD .zero := by
  cases p with
  | none => simp [setPosition, position, Keyed.find?_remove]
  | some q => simp [setPosition, position, Keyed.find?_put]

theorem enlarges_iff {old new : Decimal} : Enlarges old new ↔ |old.value| < |new.value| ∨
    old.value < 0 ∧ 0 < new.value ∨ 0 < old.value ∧ new.value < 0 := by
  simp only [Enlarges, lt_iff_value, value_abs, value_zero]

/-- What has the old side and is no larger does not enlarge the position. -/
theorem not_enlarges_of_side {old new : Decimal} (side : 0 ≤ old.value * new.value)
    (smaller : |new.value| ≤ |old.value|) : ¬ Enlarges old new := by
  rw [enlarges_iff]
  rintro (larger | ⟨short, long⟩ | ⟨long, short⟩)
  · exact not_lt.mpr smaller larger
  · exact not_lt.mpr side (mul_neg_of_neg_of_pos short long)
  · exact not_lt.mpr side (mul_neg_of_pos_of_neg long short)

theorem not_enlarges_self (d : Decimal) : ¬ Enlarges d d :=
  not_enlarges_of_side (mul_self_nonneg _) le_rfl

def Opposed (old delta : Decimal) : Prop :=
  old.value < 0 ∧ 0 < delta.value ∨ 0 < old.value ∧ delta.value < 0

section Opposed
variable {old delta new : Decimal}

theorem Opposed.ne_zero (against : Opposed old delta) : old.value ≠ 0 := by
  rcases against with ⟨short, _⟩ | ⟨long, _⟩
  · exact short.ne
  · exact long.ne'

theorem Opposed.not_sameSide (against : Opposed old delta) :
    PaperPosition.sameSide old delta = false := by
  refine Bool.eq_false_iff.mpr (mt PaperPosition.sameSide_iff.mp ?_)
  rcases against with ⟨short, buys⟩ | ⟨long, sells⟩
  · simp [short, buys.le]
  · simp [long.le, sells]

/-- A fill cut to a position is against it and no larger. -/
theorem Opposed.cut (against : Opposed old delta) :
    Opposed old (if old.abs < delta.abs then -old else delta) ∧
      |(if old.abs < delta.abs then -old else delta).value| = min |delta.value| |old.value| := by
  split
  case isTrue beyond =>
    rw [lt_iff_value, value_abs, value_abs] at beyond
    rw [value_neg, abs_neg, min_eq_right beyond.le]
    refine ⟨?_, rfl⟩
    rcases against with ⟨short, _⟩ | ⟨long, _⟩
    · exact .inl ⟨short, by simpa using short⟩
    · exact .inr ⟨long, by simpa using long⟩
  case isFalse within =>
    rw [lt_iff_value, value_abs, value_abs, not_lt] at within
    exact ⟨against, (min_eq_left within).symm⟩

/-- What is left after a smaller fill of the other side lies between zero and the old position, at
the size that remains, rounded. -/
theorem Opposed.remains (against : Opposed old delta) (within : |delta.value| ≤ |old.value|)
    (rounds : Rounds (old.value + delta.value) new) :
    0 ≤ old.value * new.value ∧ |new.value| ≤ |old.value| ∧
      Rounds (|old.value| - |delta.value|) new.abs := by
  obtain ⟨side, size⟩ :
      0 ≤ old.value * new.value ∧ Rounds (|old.value| - |delta.value|) new.abs := by
    rcases against with ⟨short, buys⟩ | ⟨long, sells⟩
    · rw [abs_of_neg short, abs_of_pos buys] at within ⊢
      have upper : new.value ≤ 0 := by simpa using rounds.ge_of_ge (a := .zero) (by simp; linarith)
      refine ⟨mul_nonneg_of_nonpos_of_nonpos short.le upper, ?_⟩
      rw [← neg_add']
      exact rounds.neg.congr (by rw [value_neg, value_abs, abs_of_nonpos upper])
    · rw [abs_of_pos long, abs_of_neg sells] at within ⊢
      have lower : 0 ≤ new.value := rounds.nonneg (by linarith)
      refine ⟨mul_nonneg long.le lower, ?_⟩
      rw [sub_neg_eq_add]
      exact rounds.congr (by rw [value_abs, abs_of_nonneg lower])
  have smaller : new.abs.value ≤ old.abs.value :=
    size.ge_of_ge (by rw [value_abs]; linarith [abs_nonneg delta.value])
  rw [value_abs, value_abs] at smaller
  exact ⟨side, smaller, size⟩

theorem Opposed.sum_eq_zero_iff (against : Opposed old delta) :
    old.value + delta.value = 0 ↔ |delta.value| = |old.value| := by
  rcases against with ⟨short, buys⟩ | ⟨long, sells⟩
  · rw [abs_of_neg short, abs_of_pos buys]
    constructor <;> intro <;> linarith
  · rw [abs_of_pos long, abs_of_neg sells]
    constructor <;> intro <;> linarith

end Opposed

/-- What is left after a smaller fill of the other side does not enlarge the position. -/
theorem not_enlarges_of_closed {old delta new : Decimal}
    (against : Opposed old delta) (within : |delta.value| ≤ |old.value|)
    (rounds : Rounds (old.value + delta.value) new) :
    ¬ Enlarges old new := by
  obtain ⟨side, smaller, _⟩ := against.remains within rounds
  exact not_enlarges_of_side side smaller

theorem against_of_closing {a : PaperAccount} {order : Order} (ordered : 0 < order.quantity.value)
    (closing : a.opens order = false) :
    (a.position order.symbol).value < 0 ∧ order.side = .buy ∨
      0 < (a.position order.symbol).value ∧ order.side = .sell := by
  have nonzero := position_ne_zero closing
  simp only [opens, Bool.or_eq_false_iff] at closing
  have sides := mt PaperPosition.sameSide_iff.mpr (Bool.eq_false_iff.mp closing.2)
  cases side : order.side with
  | buy =>
    left
    simp only [signedQuantity, side, ordered.le, iff_true, not_le] at sides
    exact ⟨sides, rfl⟩
  | sell =>
    right
    simp only [signedQuantity, side, value_neg, neg_nonneg, not_le.mpr ordered, iff_false,
      not_not] at sides
    exact ⟨lt_of_le_of_ne sides nonzero.symm, rfl⟩

theorem closing_of_against {a : PaperAccount} {order : Order} (ordered : 0 < order.quantity.value)
    (against : a.position order.symbol < .zero ∧ order.side = .buy ∨
      .zero < a.position order.symbol ∧ order.side = .sell) : a.opens order = false := by
  simp only [lt_iff_value, value_zero] at against
  have other : ¬ (0 ≤ (a.position order.symbol).value ↔ 0 ≤ (signedQuantity order).value) := by
    rcases against with ⟨short, side⟩ | ⟨long, side⟩
    · simp [signedQuantity, side, ordered.le, short]
    · simp [signedQuantity, side, ordered, long.le]
  have nonzero : (a.position order.symbol).value ≠ 0 := by
    rcases against with ⟨short, _⟩ | ⟨long, _⟩
    · exact short.ne
    · exact long.ne'
  rw [opens, Bool.or_eq_false_iff]
  exact ⟨Bool.eq_false_iff.mpr (mt isZero_iff.mp nonzero),
    Bool.eq_false_iff.mpr (mt PaperPosition.sameSide_iff.mp other)⟩

theorem held_of_opposed {a : PaperAccount} {symbol : String} {delta : Decimal}
    (against : Opposed (a.position symbol) delta) :
    ∃ p, Keyed.find? symbol a.positions = some p ∧ a.position symbol = p.quantity := by
  cases held : Keyed.find? symbol a.positions with
  | none => exact absurd (by simp [position, held]) against.ne_zero
  | some p => exact ⟨p, rfl, position_of_find? held⟩

theorem fill_opposed {p : PaperPosition} {delta : Decimal} (against : Opposed p.quantity delta)
    (price : Decimal) : PaperPosition.fill (some p) delta price = p.reduce delta price := by
  simp only [PaperPosition.fill, against.not_sameSide, Bool.false_eq_true, if_false]

/-- A fill against the position leaves the rounded difference. -/
theorem fill_against {a : PaperAccount} {symbol : String} {delta price profit : Decimal}
    {p : Option PaperPosition} (against : Opposed (a.position symbol) delta)
    (filled : PaperPosition.fill (Keyed.find? symbol a.positions) delta price = .ok (p, profit)) :
    Rounds ((a.position symbol).value + delta.value) ((p.map (·.quantity)).getD .zero) := by
  obtain ⟨q, stored, size⟩ := held_of_opposed against
  rw [size] at against ⊢
  rw [stored, fill_opposed against] at filled
  obtain ⟨remaining, adding, rfl⟩ := PaperPosition.reduce_ok filled
  refine (add_rounds adding).congr ?_
  simp only [PaperPosition.remainder]
  split
  case isTrue nothing => simp [isZero_iff.mp nothing]
  case isFalse => split <;> rfl

theorem requiredMargin_signed (a : PaperAccount) (order : Order) (price : Decimal) :
    a.requiredMargin order.symbol (signedQuantity order) price =
      a.requiredMargin order.symbol order.quantity price := by
  have size : (signedQuantity order).abs = order.quantity.abs := by
    cases side : order.side
    · rw [signedQuantity, side]
    · simp only [signedQuantity, side, Decimal.abs, neg_coefficient, neg_scale, Int.natAbs_neg]
  simp only [requiredMargin, size]

/-- An order that opens or adds is covered, also once it is filled. -/
theorem covers_of_opened {a after : PaperAccount} {order : Order}
    {price required used available : Decimal} (sound : a.Sound)
    (margin : a.requiredMargin order.symbol (signedQuantity order) price = .ok required)
    (held : a.usedMargin = .ok used) (left : a.wallet.sub used = .ok available)
    (covered : ¬ available < required) (leverages : after.leverages = a.leverages)
    (wallet : after.wallet.value = a.wallet.value)
    (positions : Keyed.remove order.symbol after.positions = Keyed.remove order.symbol a.positions) :
    after.Covers order.symbol order.quantity price := by
  obtain ⟨others, summed, nonneg, fewer⟩ := othersMargin_le sound order.symbol held
  have before := sub_rounds left
  have within : a.wallet.value - used.value ≤ after.wallet.value - others.value := by linarith
  obtain ⟨available', left'⟩ : ∃ available', after.wallet.sub others = .ok available' := by
    rcases le_total 0 (after.wallet.value - others.value) with positive | negative
    · refine sub_ok (Rounds.ofDecimal after.wallet) ?_
      rw [abs_of_nonneg positive, abs_of_nonneg (by linarith)]
      linarith
    · refine sub_ok before ?_
      rw [abs_of_nonpos negative, abs_of_nonpos (by linarith)]
      linarith
  have more := before.mono (sub_rounds left') within
  refine ⟨required, others, available', ?_, ?_, left', ?_⟩
  · rw [← margin, requiredMargin_signed]
    simp only [requiredMargin, leverage, leverages]
  · rw [← summed]
    simp only [othersMargin, positions, usedMargin, marginOf, leverage, leverages]
  · rw [le_iff_value]
    rw [lt_iff_value, not_lt] at covered
    exact covered.trans more

theorem signed_against {position : Decimal} {order : Order} (ordered : 0 < order.quantity.value)
    (against : position.value < 0 ∧ order.side = .buy ∨ 0 < position.value ∧ order.side = .sell) :
    Opposed position (signedQuantity order) := by
  rcases against with ⟨short, side⟩ | ⟨long, side⟩
  · exact .inl ⟨short, by simpa [signedQuantity, side] using ordered⟩
  · exact .inr ⟨long, by simpa [signedQuantity, side] using ordered⟩

/-- A fill that does not pass the position does not enlarge it. -/
theorem not_enlarges_of_admits {a : PaperAccount} {order : Order} {price delta profit : Decimal}
    {p : Option PaperPosition} (ordered : 0 < order.quantity.value)
    (admits : Admits a order price delta) (closing : a.opens order = false)
    (stays : ¬ a.Flips order)
    (filled : PaperPosition.fill (Keyed.find? order.symbol a.positions) delta price =
      .ok (p, profit)) :
    ¬ Enlarges (a.position order.symbol) ((p.map (·.quantity)).getD .zero) := by
  have sides := against_of_closing ordered closing
  have against := signed_against ordered sides
  have quantity := size_signedQuantity ordered
  cases admits with
  | opens _ opening => rw [closing] at opening; cases opening
  | reduces =>
    obtain ⟨opposite, size⟩ := against.cut
    exact not_enlarges_of_closed opposite (size.trans_le (min_le_right _ _))
      (fill_against opposite filled)
  | closes free _ =>
    have within : |(signedQuantity order).value| ≤ |(a.position order.symbol).value| := by
      by_contra beyond
      refine stays ⟨free, by simpa only [lt_iff_value, value_zero] using sides, ?_⟩
      rw [lt_iff_value, value_abs, ← quantity]
      exact not_le.mp beyond
    exact not_enlarges_of_closed against within (fill_against against filled)

theorem sameSide_of_opens {a : PaperAccount} {order : Order} {p : PaperPosition} (sound : a.Sound)
    (opening : a.opens order = true) (held : Keyed.find? order.symbol a.positions = some p) :
    PaperPosition.sameSide p.quantity (signedQuantity order) = true := by
  have nonzero := (sound.positions _ (Keyed.mem_of_find? held)).quantity
  rw [opens, position_of_find? held, Bool.or_eq_true] at opening
  exact opening.resolve_left (mt isZero_iff.mp nonzero)

theorem fill_opening {a : PaperAccount} {order : Order} {price profit : Decimal}
    {p : Option PaperPosition} (sound : a.Sound) (opening : a.opens order = true)
    (filled : PaperPosition.fill (Keyed.find? order.symbol a.positions) (signedQuantity order)
      price = .ok (p, profit)) : profit = .zero := by
  cases stored : Keyed.find? order.symbol a.positions with
  | none =>
    rw [stored] at filled
    cases filled
    rfl
  | some q =>
    have same := sameSide_of_opens sound opening stored
    simp only [stored, PaperPosition.fill, same, if_true] at filled
    obtain ⟨grown, _, ended⟩ := bind_ok.mp filled
    exact (Prod.mk.inj (pure_ok.mp ended)).2.symm

theorem remove_setPosition (a : PaperAccount) (symbol : String) (p : Option PaperPosition) :
    Keyed.remove symbol (a.setPosition symbol p).positions = Keyed.remove symbol a.positions := by
  cases p with
  | none => exact Keyed.remove_remove symbol a.positions
  | some q => exact Keyed.remove_put symbol q a.positions

/-- An accepted order that enlarges a position without going through zero is covered by the wallet
for all of its quantity. One that goes through zero is never refused, whatever the wallet. -/
theorem enlarged_covered_unless_flipped {a earlier : PaperAccount} {order : Order} {price : Decimal}
    (run : Reachable a) (reviewed : earlier.review order = none) :
    (∀ ack, (a.settle order price).1 = .ok (.ok ack) →
      Enlarges (a.position order.symbol) ((a.settle order price).2.position order.symbol) →
      ¬ a.Flips order → (a.settle order price).2.Covers order.symbol order.quantity price) ∧
    (a.Flips order → ∀ wallet e, (settle { a with wallet } order price).1 ≠ .ok (.error e)) := by
  have ordered := quantity_pos_of_review reviewed
  constructor
  · intro ack accepted larger stays
    have ended := settle_settles a order price
    rw [accepted] at ended
    generalize (a.settle order price).2 = after at ended larger ⊢
    cases ended with
    | replayed => exact absurd larger (not_enlarges_self _)
    | @filled delta p profit wallet realizedPnl _ admitted filled paid _ =>
      have admits := admits_of_admitted admitted
      change Enlarges _ ((a.setPosition order.symbol p).position order.symbol) at larger
      rw [position_setPosition] at larger
      cases closing : a.opens order with
      | false => exact absurd larger (not_enlarges_of_admits ordered admits closing stays filled)
      | true =>
        cases admits with
        | reduces _ never => rw [closing] at never; cases never
        | closes _ never => rw [closing] at never; cases never
        | opens _ _ margin held left covered =>
          have nothing := fill_opening run.sound closing filled
          subst nothing
          have kept : wallet.value = a.wallet.value := by
            have sum := add_rounds paid
            rw [value_zero, add_zero] at sum
            exact sum.unique (.ofDecimal a.wallet)
          exact covers_of_opened run.sound margin held left covered
            (setPosition_leverages a order.symbol p) kept (remove_setPosition a order.symbol p)
  · intro flips wallet e refused
    have against : a.opens order = false := closing_of_against ordered flips.against
    have admitted := admitted_of_closes (a := { a with wallet }) price flips.free against
    have ended := settle_settles { a with wallet } order price
    rw [refused] at ended
    generalize (settle { a with wallet } order price).2 = after at ended
    cases ended with
    | refused _ never =>
      rw [admitted] at never
      cases never

def marketOrder (side : OrderSide) (quantity : Decimal) : Order :=
  { symbol := "BTCUSDT", side, quantity }

def walletOfHundred (fillCount : Nat) (quantity : Option Decimal) : PaperAccount where
  wallet := .hundred
  fillCount := fillCount
  positions := (quantity.map fun q => ("BTCUSDT", ⟨q, .hundred⟩)).toList

theorem settle_buyOne :
    (walletOfHundred 0 none).settle (marketOrder .buy .one) .hundred =
      (.ok (.ok ⟨"paper-1", some .hundred⟩), walletOfHundred 1 (some .one)) := by
  with_unfolding_all rfl

theorem first_order_covered :
    (walletOfHundred 1 (some .one)).Covers "BTCUSDT" .one .hundred := by
  have run : Reachable (walletOfHundred 0 none) := .new .hundred
  have reviewed : (walletOfHundred 0 none).review (marketOrder .buy .one) = none := by
    with_unfolding_all rfl
  have larger : Enlarges .zero .one := .inl (by decide)
  have flat : ¬ (walletOfHundred 0 none).Flips (marketOrder .buy .one) := by
    rintro ⟨_, ⟨short, _⟩ | ⟨long, _⟩, _⟩
    · exact absurd short (by decide)
    · exact absurd long (by decide)
  have covered := (enlarged_covered_unless_flipped run reviewed).1 _
    (congrArg Prod.fst settle_buyOne) (by rw [settle_buyOne]; exact larger) flat
  rwa [settle_buyOne] at covered

/-- A wallet of a hundred goes from one unit long to ninety-nine units short at a price of a
hundred. -/
theorem flip_uncovered :
    ∃ (a after : PaperAccount) (ack : OrderAck), Reachable a ∧
      a.review (marketOrder .sell .hundred) = none ∧
      a.settle (marketOrder .sell .hundred) .hundred = (.ok (.ok ack), after) ∧
      Enlarges (a.position "BTCUSDT") (after.position "BTCUSDT") ∧
      ¬ after.Covers "BTCUSDT" ⟨99, 0, by decide, by decide⟩ .hundred := by
  have reviewed : (walletOfHundred 0 none).review (marketOrder .buy .one) = none := by
    with_unfolding_all rfl
  have start : Reachable (walletOfHundred 0 none) := .new .hundred
  have run := start.settle reviewed (show Decimal.zero < .hundred by decide)
  rw [settle_buyOne] at run
  have settled : (walletOfHundred 1 (some .one)).settle (marketOrder .sell .hundred) .hundred =
      (.ok (.ok ⟨"paper-2", some .hundred⟩),
        walletOfHundred 2 (some ⟨-99, 0, by decide, by decide⟩)) := by
    with_unfolding_all rfl
  refine ⟨_, _, _, run, by with_unfolding_all rfl, settled, .inl (by decide), ?_⟩
  rintro ⟨required, others, available, margin, summed, left, covered⟩
  have needed : Except.ok required = .ok (⟨9900, 0, by decide, by decide⟩ : Decimal) :=
    margin.symm.trans (by with_unfolding_all rfl)
  cases summed
  cases left
  cases needed
  exact absurd covered (by decide)

end FuturesDesk.PaperAccount
