import FuturesDesk.Proofs.Bot.Alternation

/-! Which accepted entries a bot follows. An exchange may report any price, and a bot may be given
any; an entry whose price is not positive is accepted and then forgotten, and the next order is
another entry. -/
namespace FuturesDesk.Bot
open Program

def Deal.Trackable (d : Deal) : Prop := ∃ price, d.entryPrice? = some price ∧ .zero < price

theorem Deal.leaves_isSome {d : Deal} (entry : d.order.reduceOnly = false) (direction : Direction) :
    (d.leaves direction).isSome ↔ d.Trackable := by
  cases entered : d.entryPrice? with
  | none => simp [leaves, entry, entered, Trackable]
  | some price =>
    by_cases positive : Decimal.zero < price <;>
      simp [leaves_entry entry entered, Trackable, entered, positive]

/-- An entry that the exchange accepted leaves the bot with the position exactly if the bot had it
already, or was flat and the price was positive. -/
theorem acts_entry_followed {b after : Bot} {price : Decimal} {direction : Direction} {talk : Talk}
    {outcome : Except BotError TradeOutcome} {order : Order} {ack : OrderAck}
    (acts : Acts b price (.enter direction) talk outcome after)
    (accepted : (⟨.placeOrder order, .ok ack⟩ : Program.Exchange ExchangeCall.Reply) ∈ talk) :
    after.stop.direction? = some direction ↔ b.stop.direction? = some direction ∨
      b.stop.isOpen = false ∧ .zero < ack.averagePrice.getD price := by
  cases acts with
  | balanceUnknown => simp at accepted
  | uncovered => simp at accepted
  | entryRefused => simp at accepted
  | entryLost _ _ lost =>
    obtain ⟨rfl, rfl⟩ : order = b.entryOrder direction ∧ ack = _ := by simpa using accepted
    constructor
    · exact .inl
    · rintro (following | fits)
      · exact following
      · exact absurd fits (TrailingStop.enter_error lost)
  | entered _ _ followed _ =>
    obtain ⟨rfl, rfl⟩ : order = b.entryOrder direction ∧ ack = _ := by simpa using accepted
    obtain ⟨following, fits⟩ := TrailingStop.enter_ok followed
    exact ⟨fun _ => .inr fits, fun _ => following⟩

/-- Acting reads no price. -/
theorem acts_reads_no_price {b after : Bot} {price : Decimal} {decision : Decision} {talk : Talk}
    {outcome : Except BotError TradeOutcome} (acts : Acts b price decision talk outcome after)
    {symbol : String} {reply : ExchangeCall.Reply (.price symbol)} :
    (⟨.price symbol, reply⟩ : Program.Exchange ExchangeCall.Reply) ∉ talk := by
  cases acts <;> simp

theorem tick_entry_followed {b after : Bot} {price : Decimal} {talk : Talk}
    {outcome : Except BotError TradeOutcome} {order : Order} {ack : OrderAck}
    (ticks : Ticks b talk outcome after)
    (read : (⟨.price b.symbol, .ok price⟩ : Program.Exchange ExchangeCall.Reply) ∈ talk)
    (accepted : (⟨.placeOrder order, .ok ack⟩ : Program.Exchange ExchangeCall.Reply) ∈ talk)
    (entry : order.reduceOnly = false) :
    after.stop.direction? = some b.rules.direction ↔
      .zero < ack.averagePrice.getD price := by
  cases ticks with
  | stopped => simp at accepted
  | dailyUnknown => simp at accepted
  | weeklyUnknown => simp at accepted
  | priceUnknown => simp at accepted
  | @decided daily weekly _ snapshot decision rest _ _ _ _ evaluated ended =>
    have acts := act_yields ended
    have placed : (⟨.placeOrder order, .ok ack⟩ : Program.Exchange ExchangeCall.Reply) ∈ rest := by
      simpa using accepted
    obtain rfl : price = _ := by simpa [acts_reads_no_price acts] using read
    cases decision with
    | hold =>
      cases acts
      simp at placed
    | exit reason =>
      cases acts with
      | nothingToExit => simp at placed
      | exitRefused => simp at placed
      | exited =>
        have exit : order.reduceOnly = true := by
          simp only [List.mem_singleton, Sigma.mk.injEq, ExchangeCall.placeOrder.injEq] at placed
          rw [placed.1]
          rfl
        rw [entry] at exit
        cases exit
    | enter direction =>
      obtain ⟨flat, rfl⟩ := (evaluate_fits evaluated).1 direction rfl
      have followed := acts_entry_followed acts placed
      rw [followed]
      simp [TrailingStop.direction?_eq_held, TrailingStop.isOpen_eq_held, flat]

/-- The position after a history that ends with an entry, and the order that comes next. -/
theorem run_entry_followed {b₀ b : Bot} {history : List Event} (fresh : b₀.pending = none)
    (run : Run b₀ history b) {d : Deal} (last : (Ledger.ofHistory history).deals.getLast? = some d)
    (entry : d.order.reduceOnly = false) :
    (b.stop.direction? = some b₀.rules.direction ↔ d.Trackable) ∧
      ∀ c talk order, (Call.program b c).Asks talk (.placeOrder order) →
        (order.reduceOnly = true ↔ d.Trackable) := by
  have f := run_follows fresh run
  have held : heldAfter b₀ (Ledger.ofHistory history).deals = d.leaves b₀.rules.direction := by
    rw [heldAfter, last]
  rw [← Deal.leaves_isSome entry b₀.rules.direction]
  constructor
  · rw [TrailingStop.direction?_eq_held, f.held, held]
    simp only [Deal.leaves, entry, Bool.false_eq_true, if_false, Option.isSome_map]
    cases d.entryPrice?.filter (Decimal.zero < ·) <;> simp
  · intro c talk order asked
    rw [call_asks_due f c asked, dueOrder, held]
    cases d.leaves b₀.rules.direction <;> simp [entryOrder, exitOrder]

/-- An entry that the exchange accepted is followed exactly if its price is positive: the reported
one, or else the one of the decision. Otherwise the bot is flat and what it orders next, if
anything, is another entry. -/
theorem accepted_entry_followed_iff (b : Bot) :
    (∀ direction price talk outcome after order ack,
      b.pending = some (.enter direction, price) → b.execute.Yields talk (outcome, after) →
      (⟨.placeOrder order, .ok ack⟩ : Program.Exchange ExchangeCall.Reply) ∈ talk →
      (after.stop.direction? = some direction ↔ b.stop.direction? = some direction ∨
        b.stop.isOpen = false ∧ .zero < ack.averagePrice.getD price)) ∧
    (∀ price talk outcome after order ack, b.tick.Yields talk (outcome, after) →
      (⟨.price b.symbol, .ok price⟩ : Program.Exchange ExchangeCall.Reply) ∈ talk →
      (⟨.placeOrder order, .ok ack⟩ : Program.Exchange ExchangeCall.Reply) ∈ talk →
      order.reduceOnly = false →
      (after.stop.direction? = some b.rules.direction ↔
        .zero < ack.averagePrice.getD price)) ∧
    (b.pending = none → ∀ history after d, Run b history after →
      (Ledger.ofHistory history).deals.getLast? = some d → d.order.reduceOnly = false →
      (after.stop.direction? = some b.rules.direction ↔ d.Trackable) ∧
        ∀ c talk order, (Call.program after c).Asks talk (.placeOrder order) →
          (order.reduceOnly = true ↔ d.Trackable)) := by
  refine ⟨?_, ?_, ?_⟩
  · intro direction price talk outcome after order ack pending executed accepted
    simp only [execute, pending] at executed
    have acts := act_yields (b := { b with pending := none }) executed
    exact acts_entry_followed (b := { b with pending := none }) acts accepted
  · intro price talk outcome after order ack ticked read accepted entry
    exact tick_entry_followed (tick_yields ticked) read accepted entry
  · intro fresh history after d run last entry
    exact run_entry_followed fresh run last entry

theorem eager_entry_followed :
    ∃ talk outcome after ack,
      ({ ofParams eager with pending := some (.enter .long, .hundred) } : Bot).execute.Yields talk
        (outcome, after) ∧
      (⟨.placeOrder ((ofParams eager).entryOrder .long), .ok ack⟩ :
        Program.Exchange ExchangeCall.Reply) ∈ talk ∧
      after.stop.direction? = some .long := by
  let flat : Bot := .ofParams eager
  let talk : Talk :=
    [⟨.balance, .ok .hundred⟩, ⟨.placeOrder (flat.entryOrder .long), .ok ⟨"1", none⟩⟩]
  have acts : Acts flat .hundred (.enter .long) talk _ _ :=
    .entered eager_requiredMargin (by decide) rfl (congrArg (Except.map some) eager_stopOf)
  have executed : ({ flat with pending := some (.enter .long, .hundred) } : Bot).execute.Yields _ _ :=
    yields_of_acts acts
  have accepted : (⟨.placeOrder (flat.entryOrder .long), .ok ⟨"1", none⟩⟩ :
      Program.Exchange ExchangeCall.Reply) ∈ talk := List.mem_cons_of_mem _ List.mem_cons_self
  have followed := (accepted_entry_followed_iff _).1 _ _ _ _ _ _ _ rfl executed accepted
  exact ⟨_, _, _, _, executed, accepted, followed.mpr (.inr ⟨rfl, by decide⟩)⟩

/-- At a price of zero the bot orders its entry again although the exchange took the first one. -/
theorem eager_enters_twice :
    ∃ history b, Run (.ofParams eager) history b ∧ b.stop.isOpen = false ∧
      (Ledger.ofHistory history).deals.map Deal.order =
        [(ofParams eager).entryOrder .long, (ofParams eager).entryOrder .long] := by
  let quiet : Snapshot := ⟨⟨.daily, []⟩, ⟨.weekly, []⟩⟩
  let flat : Bot := .ofParams eager
  have margin : flat.requiredMargin .zero = .ok .zero := by
    with_unfolding_all rfl
  have forgets (id : String) :
      ((Call.execute).program { flat with pending := some (.enter .long, .zero) }).Yields
        [⟨.balance, .ok .zero⟩, ⟨.placeOrder (flat.entryOrder .long), .ok ⟨id, none⟩⟩] flat :=
    Call.execute_yields rfl (.entryLost (b := flat) margin (by decide) rfl)
  have decides : ((Call.process quiet .zero).program flat).Yields []
      { flat with pending := some (.enter .long, .zero) } :=
    Call.process_yields rfl
  have run := (((Run.new.call _ decides).call _ (forgets "1")).call _ decides).call _ (forgets "2")
  exact ⟨_, _, run, rfl, rfl⟩

end FuturesDesk.Bot
