import FuturesDesk.Proofs.Bot.Followed

/-! What the outcome of an action tells. An action either fails and leaves the trailing stop as it
was, or did what its outcome says: the outcome, with the price of the decision, determines the
trailing stop afterwards and the order that was accepted. An order is the last thing that an action
says to the exchange, and no decision is acted on twice. -/
namespace FuturesDesk.Bot
open Program

def accepted (talk : Talk) : List (Order × OrderAck) :=
  talk.filterMap fun
    | ⟨.placeOrder order, .ok ack⟩ => some (order, ack)
    | _ => none

def priceGiven? (talk : Talk) : Option Decimal :=
  talk.findSome? fun
    | ⟨.price _, .ok price⟩ => some price
    | _ => none

/-- Nothing is said after an order, so that there is one at most. -/
def OrderLast (talk : Talk) : Prop :=
  talk.Pairwise fun earlier _ => ∀ order, earlier.1 ≠ .placeOrder order

/-- What an outcome tells of a bot before and after an action, of the price of the decision and of
the orders that were accepted. -/
def Tells (b : Bot) (decidedAt : Option Decimal) (talk : Talk) (after : Bot) :
    Except BotError TradeOutcome → Prop
  | .error _ => after.stop = b.stop
  | .ok (.skipped _) => after.stop = b.stop ∧ accepted talk = []
  | .ok .held => accepted talk = [] ∧
      ∃ price, decidedAt = some price ∧ b.stop.Holds price after.stop
  | .ok (.entered id direction price) => b.stop.isOpen = false ∧
      after.stop = { b.stop with position := some ⟨direction, price, price⟩ } ∧
      ∃ order ack decided, accepted talk = [(order, ack)] ∧ b.trading.IsEntry direction order ∧
        ack.orderId = id ∧ decidedAt = some decided ∧ price = ack.averagePrice.getD decided
  | .ok (.exited id _) => after.stop = { b.stop with position := none } ∧
      ∃ order ack direction, accepted talk = [(order, ack)] ∧ b.trading.IsExit direction order ∧
        ack.orderId = id ∧ b.stop.direction? = some direction

theorem hold_tells (b : Bot) (price : Decimal) :
    b.Tells (some price) [] (b.hold price).2 (b.hold price).1 ∧ (b.hold price).2.pending = b.pending := by
  simp only [hold]
  split
  case isTrue open_ =>
    cases observed : b.stop.observe price with
    | ok stop => exact ⟨⟨rfl, price, rfl, TrailingStop.observe_holds observed⟩, rfl⟩
    | error e => exact ⟨rfl, rfl⟩
  case isFalse flat =>
    have closed : b.stop.position = none := by simpa [TrailingStop.isOpen] using flat
    refine ⟨⟨rfl, price, rfl, rfl, ?_⟩, rfl⟩
    rw [closed]
    exact .none

theorem acts_tells {b after : Bot} {price : Decimal} {decision : Decision} {talk : Talk}
    {outcome : Except BotError TradeOutcome} (acts : Acts b price decision talk outcome after) :
    b.Tells (some price) talk after outcome ∧ OrderLast talk ∧ after.pending = b.pending := by
  cases acts with
  | held => exact ⟨(hold_tells b price).1, .nil, (hold_tells b price).2⟩
  | nothingToExit => exact ⟨⟨rfl, rfl⟩, .nil, rfl⟩
  | exitRefused => exact ⟨rfl, List.pairwise_singleton _ _, rfl⟩
  | @exited _ direction ack following =>
    have placed : b.trading.IsExit direction (b.exitOrder direction) := exitOrder_isExit b direction
    exact ⟨⟨rfl, _, ack, direction, rfl, placed, rfl, following⟩, List.pairwise_singleton _ _, rfl⟩
  | balanceUnknown => exact ⟨rfl, List.pairwise_singleton _ _, rfl⟩
  | uncovered => exact ⟨⟨rfl, rfl⟩, List.pairwise_singleton _ _, rfl⟩
  | entryRefused => exact ⟨rfl, by simp [OrderLast], rfl⟩
  | entryLost => exact ⟨rfl, by simp [OrderLast], rfl⟩
  | @entered direction _ _ ack stop _ _ _ followed _ =>
    obtain ⟨flat, rfl⟩ := TrailingStop.enter_eq followed
    have placed : b.trading.IsEntry direction (b.entryOrder direction) :=
      entryOrder_isEntry b direction
    exact ⟨⟨flat, rfl, _, ack, price, rfl, placed, rfl, rfl, rfl⟩, by simp [OrderLast], rfl⟩

theorem execute_tells {b after : Bot} {talk : Talk} {outcome : Except BotError TradeOutcome}
    (ended : b.execute.Yields talk (outcome, after)) :
    b.Tells (b.pending.map (·.2)) talk after outcome ∧ OrderLast talk ∧ after.pending = none := by
  cases execute_yields ended with
  | undecided pending => exact ⟨⟨rfl, rfl⟩, .nil, pending⟩
  | acted pending acts =>
    rw [pending]
    exact acts_tells (b := { b with pending := none }) acts

theorem OrderLast.cons {talk : Talk} (orderLast : OrderLast talk)
    {x : Program.Exchange ExchangeCall.Reply} (other : ∀ order, x.1 ≠ .placeOrder order) :
    OrderLast (x :: talk) :=
  List.pairwise_cons.mpr ⟨fun _ _ => other, orderLast⟩

/-- A cycle that comes to a decision acts on it; one that does not changes nothing and orders
nothing. -/
theorem tick_tells {b after : Bot} {talk : Talk} {outcome : Except BotError TradeOutcome}
    (ended : b.tick.Yields talk (outcome, after)) :
    b.Tells (priceGiven? talk) talk after outcome ∧ OrderLast talk ∧
      ∀ order reply, ⟨.placeOrder order, reply⟩ ∈ talk → after.pending = none := by
  cases tick_yields ended with
  | stopped => exact ⟨⟨rfl, rfl⟩, .nil, nofun⟩
  | dailyUnknown => exact ⟨rfl, by simp [OrderLast], by simp⟩
  | weeklyUnknown => exact ⟨rfl, by simp [OrderLast], by simp⟩
  | priceUnknown => exact ⟨rfl, by simp [OrderLast], by simp⟩
  | decided _ _ _ executed =>
    obtain ⟨tells, orderLast, done⟩ := execute_tells executed
    refine ⟨tells, ?_, fun _ _ _ => done⟩
    exact ((orderLast.cons (by simp)).cons (by simp)).cons (by simp)

/-- Whatever the bot and the exchange's answers are, the outcome of an action determines what became
of the trailing stop and which order was accepted. An order is the last thing said to the exchange,
and the decision is used up: to execute again does nothing before there is another one. -/
theorem outcome_determines_stop (b : Bot) :
    (∀ talk outcome after, b.execute.Yields talk (outcome, after) →
      b.Tells (b.pending.map (·.2)) talk after outcome ∧ OrderLast talk ∧ after.pending = none ∧
        ∀ more again final, after.execute.Yields more (again, final) →
          more = [] ∧ again = .ok (.skipped .noDecision) ∧ final = after) ∧
    ∀ talk outcome after, b.tick.Yields talk (outcome, after) →
      b.Tells (priceGiven? talk) talk after outcome ∧ OrderLast talk ∧
        ∀ order reply, ⟨.placeOrder order, reply⟩ ∈ talk → after.pending = none := by
  refine ⟨?_, fun _ _ _ => tick_tells⟩
  intro talk outcome after ended
  obtain ⟨tells, orderLast, done⟩ := execute_tells ended
  refine ⟨tells, orderLast, done, ?_⟩
  intro more again final repeated
  simp only [execute, done] at repeated
  obtain ⟨rfl, same⟩ := repeated
  obtain ⟨rfl, rfl⟩ := Prod.mk.inj same
  exact ⟨rfl, rfl, rfl⟩

/-- An entry at a hundred leaves the bot with a position at a hundred, and nothing to act on. -/
theorem eager_entry_tells :
    ∃ talk after, ({ ofParams eager with pending := some (.enter .long, .hundred) } :
        Bot).execute.Yields talk (.ok (.entered "1" .long .hundred), after) ∧
      after.stop = ⟨.one, some ⟨.long, .hundred, .hundred⟩⟩ ∧ (accepted talk).length = 1 ∧
      after.pending = none := by
  let flat : Bot := .ofParams eager
  have acts : Acts flat .hundred (.enter .long)
      [⟨.balance, .ok .hundred⟩, ⟨.placeOrder (flat.entryOrder .long), .ok ⟨"1", none⟩⟩] _ _ :=
    .entered eager_requiredMargin (by decide) rfl (congrArg (Except.map some) eager_stopOf)
  have executed : ({ flat with pending := some (.enter .long, .hundred) } : Bot).execute.Yields _ _ :=
    yields_of_acts acts
  obtain ⟨⟨_, stop, _, _, _, same, _⟩, _, done, _⟩ :=
    (outcome_determines_stop _).1 _ _ _ executed
  exact ⟨_, _, executed, stop, by rw [same]; rfl, done⟩

end FuturesDesk.Bot
