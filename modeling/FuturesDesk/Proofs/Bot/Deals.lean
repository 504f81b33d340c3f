import FuturesDesk.Proofs.Bot.Calls
import FuturesDesk.Proofs.Strategy.Decision
import FuturesDesk.Proofs.Strategy.TrailingStop

/-! The history of a bot between its start and its stop, and the deals in it: the orders that the
exchange accepted, each with the price that the bot had been given last. The deals alone determine
which position the bot follows and which order it may send next; every call keeps this. -/
namespace FuturesDesk.Bot
open Program

/-- The calls that the owner of a bot makes between its start and its stop. -/
inductive Call where
  | start
  | process (snapshot : Snapshot) (price : Decimal)
  | execute
  | tick

def Call.program (b : Bot) : Call → ExchangeProgram Bot
  | start => do return (← b.start).2
  | process snapshot price => do return (← Program.ofExcept (b.process snapshot price)).2
  | execute => do return (← b.execute).2
  | tick => do return (← b.tick).2

/-- What happens to a bot: its owner gives it a price, or the exchange answers a call. -/
inductive Event where
  | given (price : Decimal)
  | answered (exchange : Program.Exchange ExchangeCall.Reply)

def Call.events : Call → Talk → List Event
  | process _ price, talk => .given price :: talk.map .answered
  | _, talk => talk.map .answered

/-- The bot after calls that all ended, with everything that happened to it. -/
inductive Run (b₀ : Bot) : List Event → Bot → Prop where
  | new : Run b₀ [] b₀
  | call {history : List Event} {b after : Bot} {talk : Talk} (run : Run b₀ history b) (c : Call)
      (ended : (c.program b).Yields talk after) : Run b₀ (history ++ c.events talk) after

/-- An order that the exchange accepted. -/
structure Deal where
  order : Order
  ack : OrderAck
  /-- The price that the bot had been given last, if there was one. -/
  decidedAt : Option Decimal

namespace Deal

/-- The price at which the position of an entry counts as entered: the one that the exchange
reported or else the one of the decision. -/
def entryPrice? (d : Deal) : Option Decimal := d.ack.averagePrice <|> d.decidedAt

/-- The position that a deal leaves with a bot of a direction: none after an exit, and none after
an entry at a price that is not positive. -/
def leaves (direction : Direction) (d : Deal) : Option (Direction × Decimal) :=
  if d.order.reduceOnly then none
  else (d.entryPrice?.filter (Decimal.zero < ·)).map (direction, ·)

end Deal

/-- What a history comes to: the last price given and the deals, the first one first. -/
structure Ledger where
  price : Option Decimal := none
  deals : List Deal := []

namespace Ledger

def note (l : Ledger) : Event → Ledger
  | .given price => { l with price := some price }
  | .answered ⟨.price _, .ok price⟩ => { l with price := some price }
  | .answered ⟨.placeOrder order, .ok ack⟩ =>
    { l with deals := l.deals ++ [⟨order, ack, l.price⟩] }
  | .answered _ => l

def ofHistory (history : List Event) : Ledger := history.foldl note {}

end Ledger

def heldAfter (b₀ : Bot) (deals : List Deal) : Option (Direction × Decimal) :=
  match deals.getLast? with
  | none => b₀.stop.held
  | some d => d.leaves b₀.rules.direction

/-- The only order that may come next after some deals. -/
def dueOrder (b₀ : Bot) (deals : List Deal) : Order :=
  match heldAfter b₀ deals with
  | none => b₀.entryOrder b₀.rules.direction
  | some (direction, _) => b₀.exitOrder direction

/-- A bot that agrees with the ledger of its history. -/
structure Follows (b₀ : Bot) (l : Ledger) (b : Bot) : Prop where
  trading : b.trading = b₀.trading
  rules : b.rules = b₀.rules
  held : b.stop.held = heldAfter b₀ l.deals
  enters : ∀ direction price, b.pending = some (.enter direction, price) →
    b.stop.held = none ∧ direction = b₀.rules.direction ∧ l.price = some price
  exits : ∀ reason price, b.pending = some (.exit reason, price) → b.stop.held ≠ none
  orderly : ∀ i d, l.deals[i]? = some d → d.order = dueOrder b₀ (l.deals.take i)
  priced : ∀ d ∈ l.deals, d.order.reduceOnly = false → d.entryPrice?.isSome

theorem Call.process_yields {b : Bot} {snapshot : Snapshot} {price : Decimal} {decision : Decision}
    (evaluated : b.rules.evaluate snapshot b.stop price = .ok decision) :
    ((Call.process snapshot price).program b).Yields []
      { b with pending := some (decision, price) } :=
  yields_second.mpr ⟨decision, yields_ofExcept.mpr ⟨rfl, process_ok.mpr ⟨evaluated, rfl⟩⟩⟩

theorem Call.execute_yields {b after : Bot} {decision : Decision} {price : Decimal} {talk : Talk}
    {outcome : Except BotError TradeOutcome} (pending : b.pending = some (decision, price))
    (acts : Acts { b with pending := none } price decision talk outcome after) :
    (Call.execute.program b).Yields talk after := by
  refine yields_second.mpr ⟨outcome, ?_⟩
  simp only [Bot.execute, pending]
  exact yields_of_acts acts

theorem heldAfter_append (b₀ : Bot) (deals : List Deal) (d : Deal) :
    heldAfter b₀ (deals ++ [d]) = d.leaves b₀.rules.direction := by
  simp [heldAfter]

theorem Deal.leaves_exit {d : Deal} (exit : d.order.reduceOnly = true) (direction : Direction) :
    d.leaves direction = none := by
  simp [leaves, exit]

theorem Deal.leaves_entry {d : Deal} {price : Decimal} (entry : d.order.reduceOnly = false)
    (entered : d.entryPrice? = some price) (direction : Direction) :
    d.leaves direction = if .zero < price then some (direction, price) else none := by
  by_cases positive : Decimal.zero < price <;> simp [leaves, entry, entered, positive]

theorem entryOrder_congr {b b₀ : Bot} (trading : b.trading = b₀.trading) (direction : Direction) :
    b.entryOrder direction = b₀.entryOrder direction := by
  simp only [entryOrder, symbol, trading]

theorem exitOrder_congr {b b₀ : Bot} (trading : b.trading = b₀.trading) (direction : Direction) :
    b.exitOrder direction = b₀.exitOrder direction := by
  simp only [exitOrder, symbol, trading]

/-- The rules enter only while flat and in their own direction, and leave only what is open. -/
theorem evaluate_fits {r : Rules} {snapshot : Snapshot} {stop : TrailingStop} {price : Decimal}
    {decision : Decision} (evaluated : r.evaluate snapshot stop price = .ok decision) :
    (∀ direction, decision = .enter direction → stop.held = none ∧ direction = r.direction) ∧
      ∀ reason, decision = .exit reason → stop.held ≠ none := by
  constructor
  · rintro direction rfl
    cases Rules.decides evaluated with
    | entered flat =>
      rw [TrailingStop.isOpen_eq_held] at flat
      exact ⟨Option.not_isSome_iff_eq_none.mp (Bool.eq_false_iff.mp flat), rfl⟩
  · rintro reason rfl
    have following : stop.isOpen = true := by
      cases Rules.decides evaluated with
      | trailed following => exact following
      | left following => exact following
    rw [TrailingStop.isOpen_eq_held] at following
    exact Option.isSome_iff_ne_none.mp following

namespace Follows

variable {b₀ b : Bot} {l : Ledger}

theorem new (b₀ : Bot) (fresh : b₀.pending = none) : Follows b₀ {} b₀ where
  trading := rfl
  rules := rfl
  held := rfl
  enters := by simp [fresh]
  exits := by simp [fresh]
  orderly := by simp
  priced := by simp

/-- Nothing but the trailing stop's extreme or the running flag changed. -/
theorem keep (f : Follows b₀ l b) {stop : TrailingStop} (same : stop.held = b.stop.held)
    (running : Bool) : Follows b₀ l { b with stop, running, pending := none } where
  trading := f.trading
  rules := f.rules
  held := same.trans f.held
  enters := by simp
  exits := by simp
  orderly := f.orderly
  priced := f.priced

/-- The exchange accepted the order that was due, and the bot follows what comes of it. -/
theorem deal (f : Follows b₀ l b) {d : Deal} {stop : TrailingStop}
    (due : d.order = dueOrder b₀ l.deals) (held : stop.held = d.leaves b₀.rules.direction)
    (priced : d.order.reduceOnly = false → d.entryPrice?.isSome) :
    Follows b₀ { l with deals := l.deals ++ [d] } { b with stop, pending := none } where
  trading := f.trading
  rules := f.rules
  held := held.trans (heldAfter_append b₀ l.deals d).symm
  enters := by simp
  exits := by simp
  orderly := by
    intro i e found
    rcases Nat.lt_trichotomy i l.deals.length with before | rfl | after
    · rw [List.getElem?_append_left before] at found
      rw [List.take_append_of_le_length (Nat.le_of_lt before)]
      exact f.orderly i e found
    · rw [List.getElem?_concat_length, Option.some.injEq] at found
      rw [List.take_left, ← found]
      exact due
    · rw [List.getElem?_eq_none (by simp; omega)] at found
      cases found
  priced := by
    intro e member entry
    rcases List.mem_append.mp member with old | new
    · exact f.priced e old entry
    · obtain rfl := List.mem_singleton.mp new
      exact priced entry

/-- The order of an entry is due while the bot is flat. -/
theorem entry_due (f : Follows b₀ l b) (flat : b.stop.held = none) :
    b.entryOrder b₀.rules.direction = dueOrder b₀ l.deals := by
  rw [entryOrder_congr f.trading, dueOrder, ← f.held, flat]

/-- The order of an exit is due while the bot follows a position. -/
theorem exit_due (f : Follows b₀ l b) {direction : Direction}
    (following : b.stop.direction? = some direction) :
    b.exitOrder direction = dueOrder b₀ l.deals := by
  rw [TrailingStop.direction?_eq_held] at following
  obtain ⟨⟨_, entry⟩, held, rfl⟩ := Option.map_eq_some_iff.mp following
  rw [exitOrder_congr f.trading, dueOrder, ← f.held, held]

end Follows

theorem hold_held (b : Bot) (price : Decimal) :
    ∃ stop, (b.hold price).2 = { b with stop } ∧ stop.held = b.stop.held := by
  simp only [hold]
  split
  · cases observed : b.stop.observe price with
    | ok stop => exact ⟨stop, rfl, TrailingStop.held_observe observed⟩
    | error e => exact ⟨b.stop, rfl, rfl⟩
  · exact ⟨b.stop, rfl, rfl⟩

def Ledger.hear (l : Ledger) (talk : Talk) : Ledger := (talk.map Event.answered).foldl note l

theorem entryPrice?_of_given {l : Ledger} {price : Decimal} (order : Order) (ack : OrderAck)
    (given : l.price = some price) :
    (⟨order, ack, l.price⟩ : Deal).entryPrice? = some (ack.averagePrice.getD price) := by
  cases reported : ack.averagePrice <;> simp [Deal.entryPrice?, given, reported]

/-- Acting on the pending decision keeps the bot in agreement with its ledger. -/
theorem act_follows {b₀ b after : Bot} {l : Ledger} {decision : Decision} {price : Decimal}
    {talk : Talk} {outcome : Except BotError TradeOutcome} (f : Follows b₀ l b)
    (pending : b.pending = some (decision, price))
    (acts : Acts { b with pending := none } price decision talk outcome after) :
    Follows b₀ (l.hear talk) after := by
  cases acts with
  | held =>
    obtain ⟨stop, same, held⟩ := hold_held { b with pending := none } price
    rw [same]
    exact f.keep held b.running
  | nothingToExit => exact f.keep rfl b.running
  | exitRefused => exact f.keep rfl b.running
  | @exited reason direction ack following =>
    have exit : (b.exitOrder direction).reduceOnly = true := rfl
    exact f.deal (d := ⟨b.exitOrder direction, ack, l.price⟩) (f.exit_due following)
      (Deal.leaves_exit exit _).symm (fun entry => absurd entry (by simp [exit]))
  | balanceUnknown => exact f.keep rfl b.running
  | uncovered => exact f.keep rfl b.running
  | entryRefused => exact f.keep rfl b.running
  | @entryLost direction balance required ack e margin covered lost =>
    obtain ⟨flat, rfl, given⟩ := f.enters direction price pending
    let d : Deal := ⟨b.entryOrder b₀.rules.direction, ack, l.price⟩
    have entered : d.entryPrice? = some (ack.averagePrice.getD price) :=
      entryPrice?_of_given _ ack given
    obtain ⟨stop, followed, _⟩ | ⟨_, low⟩ :=
      TrailingStop.enter_flat flat b₀.rules.direction (ack.averagePrice.getD price)
    · rw [followed] at lost
      cases lost
    · refine f.deal (d := d) (f.entry_due flat) ?_ (fun _ => by simp [entered])
      rw [Deal.leaves_entry rfl entered, if_neg low]
      exact flat
  | @entered direction balance required ack stop _ margin covered followed _ =>
    obtain ⟨flat, rfl, given⟩ := f.enters direction price pending
    let d : Deal := ⟨b.entryOrder b₀.rules.direction, ack, l.price⟩
    have entered : d.entryPrice? = some (ack.averagePrice.getD price) :=
      entryPrice?_of_given _ ack given
    obtain ⟨_, same, positive, held⟩ | ⟨lost, _⟩ :=
      TrailingStop.enter_flat flat b₀.rules.direction (ack.averagePrice.getD price)
    · rw [followed] at same
      cases same
      refine f.deal (d := d) (f.entry_due flat) ?_ (fun _ => by simp [entered])
      rw [Deal.leaves_entry rfl entered, if_pos positive]
      exact held
    · rw [followed] at lost
      cases lost

theorem execute_follows {b₀ b after : Bot} {l : Ledger} {talk : Talk}
    {outcome : Except BotError TradeOutcome} (f : Follows b₀ l b)
    (ended : b.execute.Yields talk (outcome, after)) : Follows b₀ (l.hear talk) after := by
  cases execute_yields ended with
  | undecided => exact f
  | acted pending acts => exact act_follows f pending acts

/-- A decision that the rules made at the last price given is one to act on. -/
theorem Follows.decide {b₀ b : Bot} {l : Ledger} {snapshot : Snapshot} {price : Decimal}
    {decision : Decision} (f : Follows b₀ l b)
    (evaluated : b.rules.evaluate snapshot b.stop price = .ok decision) :
    Follows b₀ { l with price := some price } { b with pending := some (decision, price) } where
  trading := f.trading
  rules := f.rules
  held := f.held
  enters := by
    rintro direction _ ⟨⟩
    obtain ⟨flat, same⟩ := (evaluate_fits evaluated).1 direction rfl
    exact ⟨flat, same.trans (congrArg Rules.direction f.rules), rfl⟩
  exits := by
    rintro reason _ ⟨⟩
    exact (evaluate_fits evaluated).2 reason rfl
  orderly := f.orderly
  priced := f.priced

theorem tick_follows {b₀ b after : Bot} {l : Ledger} {talk : Talk}
    {outcome : Except BotError TradeOutcome} (f : Follows b₀ l b)
    (ended : b.tick.Yields talk (outcome, after)) : Follows b₀ (l.hear talk) after := by
  cases tick_yields ended with
  | stopped => exact f
  | dailyUnknown => exact f
  | weeklyUnknown => exact f
  | priceUnknown => exact f
  | decided _ _ evaluated executed =>
    have followed := execute_follows (f.decide evaluated) executed
    exact followed

theorem start_follows {b₀ b after : Bot} {l : Ledger} {talk : Talk} {outcome : Except BotError Unit}
    (f : Follows b₀ l b) (ended : b.start.Yields talk (outcome, after)) :
    Follows b₀ (l.hear talk) after := by
  cases start_yields ended with
  | already => exact f
  | refused => exact f
  | started => exact ⟨f.trading, f.rules, f.held, f.enters, f.exits, f.orderly, f.priced⟩

theorem call_follows {b₀ b after : Bot} {l : Ledger} {talk : Talk} (f : Follows b₀ l b) (c : Call)
    (ended : (c.program b).Yields talk after) :
    Follows b₀ ((c.events talk).foldl Ledger.note l) after := by
  cases c with
  | start =>
    obtain ⟨outcome, started⟩ := yields_second.mp ended
    exact start_follows f started
  | process snapshot price =>
    obtain ⟨decision, decided⟩ := yields_second.mp ended
    obtain ⟨rfl, processed⟩ := yields_ofExcept.mp decided
    obtain ⟨evaluated, rfl⟩ := process_ok.mp processed
    exact f.decide evaluated
  | execute =>
    obtain ⟨outcome, executed⟩ := yields_second.mp ended
    exact execute_follows f executed
  | tick =>
    obtain ⟨outcome, ticked⟩ := yields_second.mp ended
    exact tick_follows f ticked

/-- Every run of a bot that starts with nothing pending keeps it in agreement with its ledger. -/
theorem run_follows {b₀ b : Bot} {history : List Event} (fresh : b₀.pending = none)
    (run : Run b₀ history b) : Follows b₀ (.ofHistory history) b := by
  induction run with
  | new => exact .new b₀ fresh
  | call run c ended ih =>
    rw [Ledger.ofHistory, List.foldl_append]
    exact call_follows ih c ended

/-- A call asks for no other order than the one that is due. -/
theorem call_asks_due {b₀ b : Bot} {l : Ledger} {talk : Talk} {order : Order} (f : Follows b₀ l b)
    (c : Call) (asked : (c.program b).Asks talk (.placeOrder order)) :
    order = dueOrder b₀ l.deals := by
  have executes : ∀ {b : Bot} {l : Ledger} {talk : Talk}, Follows b₀ l b →
      b.execute.Asks talk (.placeOrder order) → order = dueOrder b₀ l.deals := by
    intro b l talk f asked
    obtain ⟨decision, price, pending, asked⟩ := execute_asks_order asked
    obtain ⟨direction, rfl, rfl⟩ | ⟨reason, direction, rfl, following, rfl⟩ := act_asks_order asked
    · obtain ⟨flat, rfl, _⟩ := f.enters direction price pending
      exact f.entry_due flat
    · exact f.exit_due following
  cases c with
  | start =>
    simp only [Call.program, asks_bind, pure_eq, asks_done, and_false, exists_false, or_false,
      start] at asked
    split at asked
    · exact asked.elim
    · simp [asks_withReply] at asked
  | process snapshot price =>
    simp [Call.program, asks_bind] at asked
  | execute =>
    simp only [Call.program, asks_bind, pure_eq, asks_done, and_false, exists_false,
      or_false] at asked
    exact executes f asked
  | tick =>
    simp only [Call.program, asks_bind, pure_eq, asks_done, and_false, exists_false,
      or_false] at asked
    cases tick_asks_order asked with
    | decided _ _ evaluated asked =>
      have due := executes (f.decide evaluated) asked
      exact due

end FuturesDesk.Bot
