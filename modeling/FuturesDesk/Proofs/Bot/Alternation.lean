import FuturesDesk.Proofs.Bot.Deals

/-! Entries and exits take turns. With positive prices every accepted entry is followed, so the next
order to be accepted is its exit, and the bot follows a position exactly while the exchange holds
one for it. -/
namespace FuturesDesk

structure TradingConfig.IsEntry (t : TradingConfig) (direction : Direction) (order : Order) :
    Prop where
  symbol : order.symbol = t.symbol
  side : order.side = direction.entrySide
  quantity : order.quantity = t.quantity
  reduceOnly : order.reduceOnly = false

structure TradingConfig.IsExit (t : TradingConfig) (direction : Direction) (order : Order) :
    Prop where
  symbol : order.symbol = t.symbol
  side : order.side = direction.exitSide
  quantity : order.quantity = t.quantity
  reduceOnly : order.reduceOnly = true

namespace Bot

theorem entryOrder_isEntry (b : Bot) (direction : Direction) :
    b.trading.IsEntry direction (b.entryOrder direction) := ⟨rfl, rfl, rfl, rfl⟩

theorem exitOrder_isExit (b : Bot) (direction : Direction) :
    b.trading.IsExit direction (b.exitOrder direction) := ⟨rfl, rfl, rfl, rfl⟩

def Event.Positive : Event → Prop
  | .given price => .zero < price
  | .answered ⟨.price _, .ok price⟩ => .zero < price
  | .answered ⟨.placeOrder _, .ok ack⟩ => ∀ price, ack.averagePrice = some price → .zero < price
  | .answered _ => True

structure Ledger.Positive (l : Ledger) : Prop where
  price : ∀ price, l.price = some price → .zero < price
  deals : ∀ d ∈ l.deals, ∀ price, d.entryPrice? = some price → .zero < price

theorem Ledger.note_positive {l : Ledger} (positive : l.Positive) {e : Event} (fits : e.Positive) :
    (l.note e).Positive := by
  unfold note
  split
  · exact ⟨by rintro _ ⟨⟩; exact fits, positive.deals⟩
  · exact ⟨by rintro _ ⟨⟩; exact fits, positive.deals⟩
  case h_3 order ack =>
    refine ⟨positive.price, ?_⟩
    intro d member price entered
    rcases List.mem_append.mp member with old | new
    · exact positive.deals d old price entered
    · obtain rfl := List.mem_singleton.mp new
      cases reported : ack.averagePrice with
      | some average =>
        have same : average = price := by simpa [Deal.entryPrice?, reported] using entered
        exact same ▸ fits average reported
      | none =>
        have decided : l.price = some price := by simpa [Deal.entryPrice?, reported] using entered
        exact positive.price price decided
  · exact positive

theorem Ledger.ofHistory_positive {history : List Event} (positive : ∀ e ∈ history, e.Positive) :
    (Ledger.ofHistory history).Positive := by
  have folded : ∀ (rest : List Event) (l : Ledger), l.Positive → (∀ e ∈ rest, e.Positive) →
      (rest.foldl note l).Positive := by
    intro rest
    induction rest with
    | nil => exact fun _ fits _ => fits
    | cons e rest ih =>
      intro l fits all
      exact ih _ (note_positive fits (all e List.mem_cons_self))
        fun e member => all e (List.mem_cons_of_mem _ member)
  exact folded history {} ⟨by simp, by simp⟩ positive

/-- From flat on, the position to follow is open after every odd number of deals. -/
theorem heldAfter_take {b₀ b : Bot} {l : Ledger} (f : Follows b₀ l b) (flat : b₀.stop.held = none)
    (positive : l.Positive) {i : Nat} (within : i ≤ l.deals.length) :
    if i % 2 = 0 then heldAfter b₀ (l.deals.take i) = none
    else ∃ price, heldAfter b₀ (l.deals.take i) = some (b₀.rules.direction, price) := by
  induction i with
  | zero => exact flat
  | succ i ih =>
    have before := ih (Nat.le_of_succ_le within)
    obtain ⟨d, found⟩ : ∃ d, l.deals[i]? = some d := ⟨_, List.getElem?_eq_getElem within⟩
    have due := f.orderly i d found
    have last : heldAfter b₀ (l.deals.take (i + 1)) = d.leaves b₀.rules.direction := by
      rw [List.take_add_one, found, Option.toList_some, heldAfter_append]
    rw [last]
    by_cases even : i % 2 = 0
    · rw [if_pos even] at before
      rw [if_neg (by omega)]
      have entry : d.order.reduceOnly = false := by rw [due, dueOrder, before]; rfl
      obtain ⟨price, entered⟩ :=
        Option.isSome_iff_exists.mp (f.priced d (List.mem_of_getElem? found) entry)
      refine ⟨price, ?_⟩
      rw [Deal.leaves_entry entry entered,
        if_pos (positive.deals d (List.mem_of_getElem? found) price entered)]
    · rw [if_neg even] at before
      rw [if_pos (by omega)]
      obtain ⟨price, before⟩ := before
      exact Deal.leaves_exit (by rw [due, dueOrder, before]; rfl) _

theorem deals_alternate {b₀ b : Bot} {l : Ledger} (f : Follows b₀ l b)
    (flat : b₀.stop.held = none) (positive : l.Positive) {i : Nat} {d : Deal}
    (found : l.deals[i]? = some d) :
    if i % 2 = 0 then b₀.trading.IsEntry b₀.rules.direction d.order
    else b₀.trading.IsExit b₀.rules.direction d.order := by
  have due := f.orderly i d found
  have held := heldAfter_take f flat positive (Nat.le_of_lt (List.getElem?_eq_some_iff.mp found).1)
  by_cases even : i % 2 = 0
  · rw [if_pos even] at held ⊢
    rw [due, dueOrder, held]
    exact entryOrder_isEntry b₀ _
  · rw [if_neg even] at held ⊢
    obtain ⟨price, held⟩ := held
    rw [due, dueOrder, held]
    exact exitOrder_isExit b₀ _

/-- A position is followed exactly if the last deal is an entry. -/
theorem isOpen_iff_last_entry {b₀ b : Bot} {l : Ledger} (f : Follows b₀ l b)
    (flat : b₀.stop.held = none) (positive : l.Positive) :
    b.stop.isOpen = true ↔
      ∃ d, l.deals.getLast? = some d ∧ b₀.trading.IsEntry b₀.rules.direction d.order := by
  rw [TrailingStop.isOpen_eq_held, f.held, heldAfter]
  cases last : l.deals.getLast? with
  | none => simp [flat]
  | some d =>
    have member := List.mem_of_getLast? last
    constructor
    · intro leaves
      refine ⟨d, rfl, ?_⟩
      have entry : d.order.reduceOnly ≠ true := by
        intro exit
        simp [Deal.leaves_exit exit] at leaves
      obtain ⟨i, found⟩ := List.getElem?_of_mem member
      have turn := deals_alternate f flat positive found
      split at turn
      · exact turn
      · exact absurd turn.reduceOnly entry
    · rintro ⟨_, ⟨⟩, entry⟩
      obtain ⟨price, entered⟩ := Option.isSome_iff_exists.mp (f.priced d member entry.reduceOnly)
      simp [Deal.leaves_entry entry.reduceOnly entered, positive.deals d member price entered]

/-- A position is followed from the price that the last deal entered it at. -/
theorem position_of_last {b₀ b : Bot} {l : Ledger} (f : Follows b₀ l b)
    (flat : b₀.stop.held = none) {p : TrackedPosition} (open_ : b.stop.position = some p) :
    p.direction = b₀.rules.direction ∧
      ∃ d, l.deals.getLast? = some d ∧ d.entryPrice? = some p.entry := by
  have held : some (p.direction, p.entry) = heldAfter b₀ l.deals := by
    rw [← f.held]
    simp [TrailingStop.held, open_]
  rw [heldAfter] at held
  cases last : l.deals.getLast? with
  | none => simp [last, flat] at held
  | some d =>
    simp only [last, Deal.leaves] at held
    split at held
    · cases held
    · obtain ⟨price, entered, same⟩ := Option.map_eq_some_iff.mp held.symm
      obtain ⟨direction, rfl⟩ := Prod.mk.inj same
      exact ⟨direction.symm, d, rfl, (Option.filter_eq_some_iff.mp entered).1⟩

/-- The orders that the exchange accepts from a bot that starts flat are an entry, its exit, an entry
and so on, and after every call the bot follows a position, at the price of the last entry, exactly
if the last accepted order is an entry. -/
theorem accepted_orders_alternate {params : BotParams} {b : Bot} {history : List Event}
    (flat : params.stop.isOpen = false) (run : Run (.ofParams params) history b)
    (positive : ∀ e ∈ history, e.Positive) :
    (∀ i d, (Ledger.ofHistory history).deals[i]? = some d →
        if i % 2 = 0 then params.trading.IsEntry params.rules.direction d.order
        else params.trading.IsExit params.rules.direction d.order) ∧
      (b.stop.isOpen = true ↔ ∃ d, (Ledger.ofHistory history).deals.getLast? = some d ∧
        params.trading.IsEntry params.rules.direction d.order) ∧
      ∀ p, b.stop.position = some p → p.direction = params.rules.direction ∧
        ∃ d, (Ledger.ofHistory history).deals.getLast? = some d ∧ d.entryPrice? = some p.entry := by
  have f : Follows (.ofParams params) (.ofHistory history) b := run_follows rfl run
  have fits := Ledger.ofHistory_positive positive
  have unheld : (Bot.ofParams params).stop.held = none := by
    change params.stop.held = none
    simpa [TrailingStop.isOpen_eq_held] using flat
  refine ⟨?turns, isOpen_iff_last_entry f unheld fits, ?position⟩
  case turns =>
    intro i d found
    exact deals_alternate f unheld fits found
  case position =>
    intro p open_
    exact position_of_last f unheld open_

def always : Condition := ⟨"always", [], fun _ => true, "always"⟩

/-- A long bot that enters and leaves as soon as it may. -/
def eager : BotParams where
  pipeline := ⟨[]⟩
  rules := ⟨[always], [always], .long⟩
  stop := ⟨.one, none⟩
  trading := { symbol := "BTCUSDT", leverage := 1, quantity := .one }

theorem eager_requiredMargin : (ofParams eager).requiredMargin .hundred = .ok .hundred := by
  have product : Decimal.one.mul .hundred = .ok .hundred := by with_unfolding_all rfl
  have quotient : Decimal.hundred.div (.ofWord (max 1 1)) = .ok .hundred := by
    with_unfolding_all rfl
  simp only [requiredMargin, ofParams, eager, product]
  exact quotient

theorem eager_stopOf : TrailingStop.stopOf eager.stop.percent ⟨.long, .hundred, .hundred⟩ =
    .ok ⟨9900, 2, by decide, by decide⟩ := by
  with_unfolding_all rfl

theorem eager_orders_alternate :
    ∃ history b, eager.stop.isOpen = false ∧ Run (.ofParams eager) history b ∧
      (∀ e ∈ history, e.Positive) ∧ (Ledger.ofHistory history).deals.length = 2 ∧
      ∀ i d, (Ledger.ofHistory history).deals[i]? = some d →
        if i % 2 = 0 then eager.trading.IsEntry eager.rules.direction d.order
        else eager.trading.IsExit eager.rules.direction d.order := by
  let quiet : Snapshot := ⟨⟨.daily, []⟩, ⟨.weekly, []⟩⟩
  let flat : Bot := .ofParams eager
  let open_ : Bot := { flat with stop := ⟨.one, some ⟨.long, .hundred, .hundred⟩⟩ }
  have enters : ((Call.execute).program { flat with pending := some (.enter .long, .hundred) }).Yields
      [⟨.balance, .ok .hundred⟩, ⟨.placeOrder (flat.entryOrder .long), .ok ⟨"1", none⟩⟩] open_ :=
    Call.execute_yields rfl
      (.entered (b := flat) eager_requiredMargin (by decide) rfl (congrArg (Except.map some) eager_stopOf))
  have decides : open_.rules.evaluate quiet open_.stop .hundred =
      .ok (.exit (.condition "always")) := by
    have untriggered : open_.stop.triggeredStop? .hundred = .ok none := by
      simp only [open_, TrailingStop.triggeredStop?]
      rw [show (Decimal.one) = eager.stop.percent from rfl, eager_stopOf]
      rfl
    simp only [Rules.evaluate, untriggered]
    rfl
  have leaves : ((Call.execute).program
      { open_ with pending := some (.exit (.condition "always"), .hundred) }).Yields
      [⟨.placeOrder (flat.exitOrder .long), .ok ⟨"2", none⟩⟩] flat :=
    Call.execute_yields rfl (.exited (b := open_) rfl)
  have decidesEntry : ((Call.process quiet .hundred).program flat).Yields []
      { flat with pending := some (.enter .long, .hundred) } :=
    Call.process_yields rfl
  have run := (((Run.new.call _ decidesEntry).call _ enters).call _
    (Call.process_yields decides)).call _ leaves
  have positive : ∀ e ∈ [Event.given .hundred, .answered ⟨.balance, .ok .hundred⟩,
      .answered ⟨.placeOrder (flat.entryOrder .long), .ok ⟨"1", none⟩⟩, .given .hundred,
      .answered ⟨.placeOrder (flat.exitOrder .long), .ok ⟨"2", none⟩⟩], e.Positive := by
    have positive : Decimal.zero < .hundred := by decide
    simp [Event.Positive, positive]
  exact ⟨_, _, rfl, run, positive, rfl, (accepted_orders_alternate rfl run positive).1⟩

end Bot

end FuturesDesk
