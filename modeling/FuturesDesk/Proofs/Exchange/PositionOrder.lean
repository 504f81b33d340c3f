import FuturesDesk.Proofs.Decimal.Reordering
import FuturesDesk.Proofs.Exchange.Margin

/-! The order in which positions are visited. An account has no order of its positions, and yet the
margin that they use is summed up one after the other, with a rounding at each step. Where nothing is
rounded the order makes no difference; where something is, the sums are close to each other, and still
an order may be taken or refused by that difference. -/
namespace FuturesDesk.PaperAccount
open Decimal

def margins (a : PaperAccount) : Except Fault (List Decimal) :=
  a.positions.mapM fun (symbol, p) => a.marginOf symbol p

/-- Two answers say the same, but for the text of a refusal and the kind of a fault. -/
def SameAnswer {α : Type} :
    Except Fault (Except GatewayError α) → Except Fault (Except GatewayError α) → Prop
  | .ok (.ok x), .ok (.ok y) => x = y
  | .ok (.error _), .ok (.error _) => True
  | .error _, .error _ => True
  | _, _ => False

theorem SameAnswer.refl {α : Type} (answer : Except Fault (Except GatewayError α)) :
    SameAnswer answer answer := by
  rcases answer with f | (e | x)
  · trivial
  · trivial
  · rfl

theorem sameAnswer_bind {α : Type} {r s : Except Fault Decimal}
    {f g : Decimal → Except Fault (Except GatewayError α)} (agree : Agree r s)
    (each : ∀ u v : Decimal, u.value = v.value → SameAnswer (f u) (g v)) :
    SameAnswer (r >>= f) (s >>= g) := by
  cases r with
  | ok u =>
    cases s with
    | ok v => exact each u v agree
    | error => exact agree.elim
  | error =>
    cases s with
    | ok => exact agree.elim
    | error => trivial

/-- The order opens or adds to a position and is not limited to it. -/
def Expands (a : PaperAccount) (order : Order) : Prop :=
  order.reduceOnly = false ∧ a.opens order = true

variable {a : PaperAccount} {order : Order} {price : Decimal}
  {positions : List (String × PaperPosition)} {ms : List Decimal}

theorem usedMargin_ok_iff {used : Decimal} :
    a.usedMargin = .ok used ↔ ∃ ms, a.margins = .ok ms ∧ Decimal.sum ms = .ok used :=
  foldlM_ok_iff_mapM (f := fun entry : String × PaperPosition => a.marginOf entry.1 entry.2)

theorem margins_perm (same : positions.Perm a.positions) (made : a.margins = .ok ms) :
    ∃ again, { a with positions }.margins = .ok again ∧ again.Perm ms :=
  mapM_perm same made

theorem margins_nonneg (sound : a.Sound) (made : a.margins = .ok ms) :
    ∀ m ∈ ms, 0 ≤ m.value := by
  intro m member
  obtain ⟨entry, held, found⟩ := of_mem_mapM made member
  exact marginOf_nonneg (sound.positions entry held) found

theorem length_margins (made : a.margins = .ok ms) : ms.length = a.positions.length :=
  (mapM_ok.mp made).length_eq.symm

/-- One or two margins, and any margins of which every sum is a decimal, add up to the same in any
order. -/
theorem sum_margins_agrees (made : a.margins = .ok ms) {other : List Decimal} (perm : other.Perm ms)
    (plain : a.positions.length ≤ 2 ∨ ∀ ms, a.margins = .ok ms → SubsumsFit ms) :
    Agree (Decimal.sum ms) (Decimal.sum other) := by
  rcases plain with few | fit
  · exact agree_of_length_le ((length_margins made).trans_le few) perm
  · exact (fit ms made).agree (.refl ms) perm

theorem usedMargin_agrees (same : positions.Perm a.positions)
    (plain : a.positions.length ≤ 2 ∨ ∀ ms, a.margins = .ok ms → SubsumsFit ms) :
    Agree a.usedMargin { a with positions }.usedMargin := by
  refine agree_of_ok ?_ ?_
  · intro u used
    obtain ⟨ms, made, summed⟩ := usedMargin_ok_iff.mp used
    obtain ⟨other, made', perm⟩ := margins_perm same made
    obtain ⟨v, summed', worth⟩ := (sum_margins_agrees made perm plain).ok summed
    exact ⟨v, usedMargin_ok_iff.mpr ⟨other, made', summed'⟩, worth⟩
  · intro v used'
    obtain ⟨other, made', summed'⟩ := usedMargin_ok_iff.mp used'
    have back : a.positions.Perm { a with positions }.positions := same.symm
    obtain ⟨ms, made, perm⟩ := margins_perm back made'
    obtain ⟨u, summed, worth⟩ := (sum_margins_agrees made perm.symm plain).symm.ok summed'
    exact ⟨u, usedMargin_ok_iff.mpr ⟨ms, made, summed⟩, worth⟩

/-- In any order of the positions, the margins that they use are close to each other. -/
theorem usedMargin_close (sound : a.Sound) (same : positions.Perm a.positions) {u v : Decimal}
    (used : a.usedMargin = .ok u) (used' : { a with positions }.usedMargin = .ok v) :
    |v.value - u.value| * (coefficientBound - 5) ≤
      5 * a.positions.length * (u.value + v.value) := by
  obtain ⟨ms, made, summed⟩ := usedMargin_ok_iff.mp used
  obtain ⟨other, made', perm⟩ := margins_perm same made
  obtain ⟨again, made'', summed'⟩ := usedMargin_ok_iff.mp used'
  rw [made'] at made''
  cases made''
  rw [← length_margins made]
  exact sums_close (margins_nonneg sound made) perm summed summed'

theorem position_reordered (sound : a.Sound) (same : positions.Perm a.positions) (symbol : String) :
    { a with positions }.position symbol = a.position symbol := by
  simp only [position, Keyed.find?_perm sound.symbols same]

theorem opens_reordered (sound : a.Sound) (same : positions.Perm a.positions) (order : Order) :
    { a with positions }.opens order = a.opens order := by
  simp only [opens, position_reordered sound same]

/-- An order that opens nothing is taken or refused without a look at the margin. -/
theorem admitted_reordered (sound : a.Sound) (same : positions.Perm a.positions)
    (closing : ¬ a.Expands order) :
    { a with positions }.admitted order price = a.admitted order price := by
  rw [admitted_eq, admitted_eq, position_reordered sound same, opens_reordered sound same]
  by_cases limited : order.reduceOnly = true
  · rw [if_pos limited, if_pos limited]
  · have flat : ¬ a.opens order = true := fun opening => closing ⟨by simpa using limited, opening⟩
    rw [if_neg limited, if_neg limited, if_neg flat, if_neg flat]

/-- Where the used margins are worth the same, every order is admitted alike. -/
theorem admitted_agrees (sound : a.Sound) (same : positions.Perm a.positions)
    (agree : Agree a.usedMargin { a with positions }.usedMargin) :
    SameAnswer (a.admitted order price) ({ a with positions }.admitted order price) := by
  by_cases expands : a.Expands order
  · obtain ⟨free, opening⟩ := expands
    have unlimited : ¬ order.reduceOnly = true := by simp [free]
    rw [admitted_eq, admitted_eq, opens_reordered sound same, if_neg unlimited, if_neg unlimited,
      if_pos opening, if_pos opening]
    refine sameAnswer_bind (Agree.refl _) fun required required' needed => ?_
    refine sameAnswer_bind agree fun used used' held => ?_
    refine sameAnswer_bind (sub_agree a.wallet held) fun available available' left => ?_
    have checked : available < required ↔ available' < required' := by
      rw [lt_iff_value, lt_iff_value, needed, left]
    by_cases short : available < required
    · rw [if_pos short, if_pos (checked.mp short)]
      trivial
    · rw [if_neg short, if_neg (mt checked.mpr short)]
      exact .refl _
  · rw [admitted_reordered sound same expands]
    exact .refl _

theorem book_reordered (sound : a.Sound) (same : positions.Perm a.positions) (symbol : String)
    (delta : Decimal) :
    ({ a with positions }.book symbol delta price).1 = (a.book symbol delta price).1 := by
  have held : Keyed.find? symbol positions = Keyed.find? symbol a.positions :=
    Keyed.find?_perm sound.symbols same symbol
  simp only [book, held]
  cases PaperPosition.fill (Keyed.find? symbol a.positions) delta price with
  | error f => rfl
  | ok result =>
    obtain ⟨p, profit⟩ := result
    simp only [setPosition_wallet]
    cases a.wallet.add profit with
    | error f => rfl
    | ok wallet =>
      simp only [setPosition_realizedPnl]
      cases a.realizedPnl.add profit with
      | error f => rfl
      | ok realizedPnl => rfl

theorem book_fillCount (a : PaperAccount) (symbol : String) (delta price : Decimal) :
    (a.book symbol delta price).2.fillCount = a.fillCount := by
  simp only [book]
  cases PaperPosition.fill (Keyed.find? symbol a.positions) delta price with
  | error f => rfl
  | ok result =>
    obtain ⟨p, profit⟩ := result
    have kept := setPosition_fillCount a symbol p
    cases paid : (a.setPosition symbol p).wallet.add profit with
    | error f => simp only [paid, kept]
    | ok wallet =>
      cases booked : (a.setPosition symbol p).realizedPnl.add profit with
      | error f => simp only [paid, booked, kept]
      | ok realizedPnl => simp only [paid, booked, kept]

/-- The answer to an order that is no repetition: a refusal, or what comes of booking it. -/
theorem answer_eq (fresh : a.previousFill? order = none) :
    (a.settle order price).1 =
      match a.admitted order price with
      | .error f => .error f
      | .ok (.error e) => .ok (.error e)
      | .ok (.ok delta) => (a.book order.symbol delta price).1.map fun _ =>
        .ok ⟨"paper-" ++ toString (a.fillCount + 1), some price⟩ := by
  simp only [settle, fresh]
  rcases a.admitted order price with f | (e | delta)
  · rfl
  · rfl
  · have count := a.book_fillCount order.symbol delta price
    rcases booked : a.book order.symbol delta price with ⟨f | done, after⟩
    · simp only [booked]
      rfl
    · rw [booked] at count
      simp only [booked, ← count]
      rfl

theorem answer_repeated {ack : OrderAck} (known : a.previousFill? order = some ack) :
    (a.settle order price).1 = .ok (.ok ack) := by
  simp only [settle, known]

/-- What is admitted alike is answered alike. -/
theorem answer_agrees (sound : a.Sound) (same : positions.Perm a.positions)
    (admitted : SameAnswer (a.admitted order price) ({ a with positions }.admitted order price)) :
    SameAnswer (a.settle order price).1 ({ a with positions }.settle order price).1 := by
  cases known : a.previousFill? order with
  | some ack =>
    rw [answer_repeated known, answer_repeated (a := { a with positions }) known]
    exact .refl _
  | none =>
    rw [answer_eq known, answer_eq (a := { a with positions }) known]
    simp only [book_reordered sound same]
    generalize a.admitted order price = here, { a with positions }.admitted order price = there
      at admitted ⊢
    match here, there, admitted with
    | .error _, .error _, _ => trivial
    | .ok (.error _), .ok (.error _), _ => trivial
    | .ok (.ok delta), .ok (.ok _), rfl => exact .refl _

/-- An order that repeats another or opens nothing gets the same answer in any order of the
positions. -/
theorem answer_reordered (sound : a.Sound) (same : positions.Perm a.positions)
    (closing : a.previousFill? order = none → ¬ a.Expands order) :
    ({ a with positions }.settle order price).1 = (a.settle order price).1 := by
  cases known : a.previousFill? order with
  | some ack => rw [answer_repeated known, answer_repeated (a := { a with positions }) known]
  | none =>
    rw [answer_eq known, answer_eq (a := { a with positions }) known]
    simp only [admitted_reordered sound same (closing known), book_reordered sound same]

theorem expands_reordered (sound : a.Sound) (same : positions.Perm a.positions) :
    { a with positions }.Expands order ↔ a.Expands order := by
  rw [Expands, Expands, opens_reordered sound same]

theorem fresh_of_refused {e : GatewayError} (refused : (a.settle order price).1 = .ok (.error e)) :
    a.previousFill? order = none := by
  cases known : a.previousFill? order with
  | none => rfl
  | some ack =>
    rw [answer_repeated known] at refused
    cases refused

/-- An order that opens or adds is taken only if what is left of the wallet covers it. -/
theorem covered_of_accepted {ack : OrderAck} (expands : a.Expands order)
    (fresh : a.previousFill? order = none) (accepted : (a.settle order price).1 = .ok (.ok ack)) :
    ∃ required used available,
      a.requiredMargin order.symbol (signedQuantity order) price = .ok required ∧
      a.usedMargin = .ok used ∧ a.wallet.sub used = .ok available ∧ ¬ available < required := by
  have ended := settle_settles a order price
  rw [accepted] at ended
  generalize (a.settle order price).2 = after at ended
  cases ended with
  | replayed known => cases fresh.symm.trans known
  | filled _ admitted _ _ _ =>
    cases admits_of_admitted admitted with
    | reduces limited => cases expands.1.symm.trans limited
    | closes _ closing => cases expands.2.symm.trans closing
    | opens _ _ margin held left covered => exact ⟨_, _, _, margin, held, left, covered⟩

/-- It is refused only if what is left of the wallet does not. -/
theorem short_of_refused {e : GatewayError} (expands : a.Expands order)
    (refused : (a.settle order price).1 = .ok (.error e)) :
    ∃ required used available,
      a.requiredMargin order.symbol (signedQuantity order) price = .ok required ∧
      a.usedMargin = .ok used ∧ a.wallet.sub used = .ok available ∧ available < required := by
  obtain ⟨free, opening⟩ := expands
  have ended := settle_settles a order price
  rw [refused] at ended
  generalize (a.settle order price).2 = after at ended
  cases ended with
  | refused _ refused =>
    simp only [admitted_eq, free, opening, if_true, Bool.false_eq_true, if_false, bind_ok]
      at refused
    obtain ⟨required, margin, used, held, available, left, checked⟩ := refused
    split at checked
    case isTrue short => exact ⟨required, used, available, margin, held, left, short⟩
    case isFalse => cases checked

/-- An order that is taken in one order of the positions and refused in another needs, but for a few
parts in `2 ^ 96`, just what is left of the wallet. -/
theorem near_of_decided_apart (sound : a.Sound) (same : positions.Perm a.positions) {ack : OrderAck}
    {e : GatewayError} (accepted : (a.settle order price).1 = .ok (.ok ack))
    (refused : ({ a with positions }.settle order price).1 = .ok (.error e)) :
    ∃ required u v, a.requiredMargin order.symbol (signedQuantity order) price = .ok required ∧
      a.usedMargin = .ok u ∧ { a with positions }.usedMargin = .ok v ∧
      |required.value + u.value - a.wallet.value| * (coefficientBound - 5) ≤
        5 * (a.positions.length * (u.value + v.value) + |a.wallet.value - u.value|) := by
  have fresh := fresh_of_refused refused
  have expands : a.Expands order := by
    by_contra closing
    rw [answer_reordered sound same fun _ => closing, accepted] at refused
    cases refused
  obtain ⟨required, u, available, margin, held, left, covered⟩ :=
    covered_of_accepted expands fresh accepted
  obtain ⟨_, v, available', margin', held', left', short⟩ :=
    short_of_refused ((expands_reordered sound same).mpr expands) refused
  cases margin.symm.trans margin'
  refine ⟨required, u, v, margin, held, held', ?_⟩
  have apart := usedMargin_close sound same held held'
  have strays := sub_error left
  have above : required.value ≤ available.value := by
    rwa [lt_iff_value, not_lt] at covered
  have below : a.wallet.value - v.value < required.value := by
    by_contra within
    rw [lt_iff_value] at short
    exact not_lt.mpr ((sub_rounds left').le_of_le (not_lt.mp within)) short
  have bound : (0 : ℚ) ≤ coefficientBound - 5 := by norm_num
  -- The order needs more than what is left by what the subtraction strays at most, and less by what
  -- the other order of the positions adds to the sum.
  have band : |required.value + u.value - a.wallet.value| ≤
      |v.value - u.value| + |available.value - (a.wallet.value - u.value)| := by
    have more := le_abs_self (v.value - u.value)
    have less := le_abs_self (available.value - (a.wallet.value - u.value))
    rw [abs_le]
    constructor
    · linarith [abs_nonneg (available.value - (a.wallet.value - u.value))]
    · linarith [abs_nonneg (v.value - u.value)]
  calc |required.value + u.value - a.wallet.value| * (coefficientBound - 5)
      ≤ (|v.value - u.value| + |available.value - (a.wallet.value - u.value)|) *
          (coefficientBound - 5) := mul_le_mul_of_nonneg_right band bound
    _ = |v.value - u.value| * (coefficientBound - 5) +
          |available.value - (a.wallet.value - u.value)| * coefficientBound -
          5 * |available.value - (a.wallet.value - u.value)| := by ring
    _ ≤ 5 * a.positions.length * (u.value + v.value) + 5 * |a.wallet.value - u.value| := by
        linarith [abs_nonneg (available.value - (a.wallet.value - u.value))]
    _ = 5 * (a.positions.length * (u.value + v.value) + |a.wallet.value - u.value|) := by ring

/-- A reachable account with its positions in another order answers alike all orders that open
nothing and add to nothing, or that were filled before. It answers all orders alike where it holds two
positions or fewer, and where no sum of margins is rounded. Everywhere else the used margins are close
to each other, and only orders that take up what is left of the wallet, but for that difference, may
be decided apart. -/
theorem decides_regardless_of_order (run : Reachable a) (same : positions.Perm a.positions) :
    (∀ order, { a with positions }.review order = a.review order) ∧
    (∀ order price, (a.previousFill? order = none → ¬ a.Expands order) →
      ({ a with positions }.settle order price).1 = (a.settle order price).1) ∧
    ((a.positions.length ≤ 2 ∨ ∀ ms, a.margins = .ok ms → SubsumsFit ms) →
      Agree a.usedMargin { a with positions }.usedMargin ∧ ∀ order price,
        SameAnswer (a.settle order price).1 ({ a with positions }.settle order price).1) ∧
    (∀ u v, a.usedMargin = .ok u → { a with positions }.usedMargin = .ok v →
      |v.value - u.value| * (coefficientBound - 5) ≤
        5 * a.positions.length * (u.value + v.value)) ∧
    ∀ order price ack e, (a.settle order price).1 = .ok (.ok ack) →
      ({ a with positions }.settle order price).1 = .ok (.error e) →
      ∃ required u v, a.requiredMargin order.symbol (signedQuantity order) price = .ok required ∧
        a.usedMargin = .ok u ∧ { a with positions }.usedMargin = .ok v ∧
        |required.value + u.value - a.wallet.value| * (coefficientBound - 5) ≤
          5 * (a.positions.length * (u.value + v.value) + |a.wallet.value - u.value|) := by
  have sound := run.sound
  refine ⟨fun _ => rfl, ?closing, ?plain, ?close, ?apart⟩
  case closing =>
    intro order price closing
    exact answer_reordered sound same closing
  case plain =>
    intro plain
    have agree := usedMargin_agrees same plain
    refine ⟨agree, fun order price => ?_⟩
    exact answer_agrees sound same (admitted_agrees sound same agree)
  case close =>
    intro u v used used'
    exact usedMargin_close sound same used used'
  case apart =>
    intro order price ack e accepted refused
    exact near_of_decided_apart sound same accepted refused

def buyOne (symbol : String) : Order := { symbol, side := .buy, quantity := .one }

def buyEach (a : PaperAccount) (prices : List (String × Decimal)) : PaperAccount :=
  prices.foldl (fun a (symbol, price) => (a.settle (buyOne symbol) price).2) a

theorem Reachable.buyEach (run : Reachable a) {prices : List (String × Decimal)}
    (positive : ∀ entry ∈ prices, .zero < entry.2) : Reachable (a.buyEach prices) := by
  induction prices generalizing a with
  | nil => exact run
  | cons entry prices ih =>
    have reviewed : ({ wallet := .one } : PaperAccount).review (buyOne entry.1) = none := rfl
    have next := run.settle reviewed (positive entry List.mem_cons_self)
    exact ih next fun entry member => positive entry (List.mem_cons_of_mem _ member)

/-- A wallet that is taken up by two positions of a half each and one of a power of ten. -/
def halvesBeside (digits : Nat) (fits : tenTo digits + 1 < coefficientBound) : PaperAccount :=
  buyEach { wallet := ⟨(tenTo digits + 1 : Nat), 0, fits, Nat.zero_le maxScale⟩ }
    [("ADAUSDT", ⟨5, 1, by decide, by decide⟩), ("XRPUSDT", ⟨5, 1, by decide, by decide⟩),
      ("BTCUSDT", ⟨tenTo digits, 0, Nat.lt_of_succ_lt fits, Nat.zero_le maxScale⟩)]

theorem halvesBeside_reachable (digits : Nat) (fits : tenTo digits + 1 < coefficientBound) :
    Reachable (halvesBeside digits fits) := by
  refine (Reachable.new _).buyEach ?_
  simp only [List.mem_cons, List.not_mem_nil, or_false]
  rintro _ (rfl | rfl | rfl)
  · decide
  · decide
  · exact zero_lt_iff.mpr (Int.natCast_pos.mpr (tenTo_pos digits))

/-- With one place before the point to spare nothing is rounded, and the positions decide alike from
the last to the first. -/
theorem halves_decide_alike :
    Agree (halvesBeside 27 (by decide)).usedMargin
      { halvesBeside 27 (by decide) with
        positions := (halvesBeside 27 (by decide)).positions.reverse }.usedMargin ∧
    ∀ order price, SameAnswer ((halvesBeside 27 (by decide)).settle order price).1
      ({ halvesBeside 27 (by decide) with
        positions := (halvesBeside 27 (by decide)).positions.reverse }.settle order price).1 := by
  have run := halvesBeside_reachable 27 (by decide)
  obtain ⟨_, _, plain, _⟩ := decides_regardless_of_order run (List.reverse_perm _)
  refine plain (.inr fun ms made => ?_)
  have same : Except.ok ms = Except.ok [⟨5, 1, by decide, by decide⟩, ⟨5, 1, by decide, by decide⟩,
      ⟨tenTo 27, 0, by decide, by decide⟩] := made.symm.trans (by decide +kernel)
  cases same
  exact subsumsFit_of_places (show 1 ≤ maxScale by decide) (by decide) (by decide)

/-- Two halves that are added to `10 ^ 28` one by one are rounded away, and added to each other
first they count. The wallet has nothing left, or one, and an order for one is refused, or taken. -/
theorem order_of_positions_decides :
    let a := halvesBeside 28 (by decide)
    let b := { a with positions := a.positions.reverse }
    Reachable a ∧ b.positions.Perm a.positions ∧ a.review (buyOne "ETHUSDT") = none ∧
    a.usedMargin = .ok ⟨tenTo 28 + 1, 0, by decide, by decide⟩ ∧
    b.usedMargin = .ok ⟨tenTo 28, 0, by decide, by decide⟩ ∧
    (a.settle (buyOne "ETHUSDT") .one).1 =
      .ok (.error (.rejected "margin is insufficient: need 1, available 0")) ∧
    (b.settle (buyOne "ETHUSDT") .one).1 = .ok (.ok ⟨"paper-4", some .one⟩) := by
  refine ⟨halvesBeside_reachable 28 _, List.reverse_perm _, rfl, ?_, ?_, ?_, ?_⟩
  all_goals decide +kernel

end FuturesDesk.PaperAccount
