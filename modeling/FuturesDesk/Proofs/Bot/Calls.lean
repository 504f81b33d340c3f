import FuturesDesk.Bot.Basic
import FuturesDesk.Proofs.Program.Conversation

/-! What each operation of a bot can do. An operation is a program; here are the conversations that
it can hold with an exchange, each with its guards, its outcome and the bot that it leaves. Later
proofs go by these cases and do not open the operations. -/
namespace FuturesDesk.Bot
open Program

abbrev Talk : Type := List (Program.Exchange ExchangeCall.Reply)

theorem yields_withReply {α : Type} {b : Bot} {c : ExchangeCall}
    {next : c.Value → ExchangeProgram (Result α)} {talk : Talk} {result : Result α} :
    (b.withReply c next).Yields talk result ↔
      (∃ value rest, talk = ⟨c, .ok value⟩ :: rest ∧ (next value).Yields rest result) ∨
        ∃ e, talk = [⟨c, .error e⟩] ∧ result = (.error (.gateway e), b) := by
  simp only [withReply, ExchangeProgram.call, Program.question, ask_bind, done_bind, yields_ask]
  constructor
  · rintro ⟨reply, rest, rfl, ended⟩
    cases reply with
    | ok value => exact .inl ⟨value, rest, rfl, ended⟩
    | error e =>
      obtain ⟨rfl, rfl⟩ := ended
      exact .inr ⟨e, rfl, rfl⟩
  · rintro (⟨value, rest, rfl, ended⟩ | ⟨e, rfl, rfl⟩)
    · exact ⟨.ok value, rest, rfl, ended⟩
    · exact ⟨.error e, [], rfl, rfl, rfl⟩

theorem asks_withReply {α : Type} {b : Bot} {c q : ExchangeCall}
    {next : c.Value → ExchangeProgram (Result α)} {talk : Talk} :
    (b.withReply c next).Asks talk q ↔
      (talk = [] ∧ c = q) ∨
        ∃ value rest, talk = ⟨c, .ok value⟩ :: rest ∧ (next value).Asks rest q := by
  simp only [withReply, ExchangeProgram.call, Program.question, ask_bind, done_bind, asks_ask]
  constructor
  · rintro (first | ⟨reply, rest, rfl, asked⟩)
    · exact .inl first
    · cases reply with
      | ok value => exact .inr ⟨value, rest, rfl, asked⟩
      | error e => exact asked.elim
  · rintro (first | ⟨value, rest, rfl, asked⟩)
    · exact .inl first
    · exact .inr ⟨.ok value, rest, rfl, asked⟩

/-- The program that keeps only the bot of an operation's result. -/
theorem yields_second {Q α β : Type} {Answer : Q → Type} {p : Program Q Answer (α × β)}
    {talk : List (Program.Exchange Answer)} {after : β} :
    (do return (← p).2 : Program Q Answer β).Yields talk after ↔
      ∃ outcome, p.Yields talk (outcome, after) := by
  simp only [yields_bind, pure_eq, yields_done]
  constructor
  · rintro ⟨_, ⟨outcome, _⟩, _, rfl, ended, rfl, rfl⟩
    exact ⟨outcome, by rwa [List.append_nil]⟩
  · rintro ⟨outcome, ended⟩
    exact ⟨talk, (outcome, after), [], (List.append_nil talk).symm, ended, rfl, rfl⟩

/-- How acting on a decision at a price ends. Only an accepted order and a held position change the
trailing stop. -/
inductive Acts (b : Bot) (price : Decimal) :
    Decision → Talk → Except BotError TradeOutcome → Bot → Prop where
  | held : Acts b price .hold [] (b.hold price).1 (b.hold price).2
  | nothingToExit {reason} (flat : b.stop.direction? = none) :
      Acts b price (.exit reason) [] (.ok (.skipped .notOpen)) b
  | exitRefused {reason direction e} (following : b.stop.direction? = some direction) :
      Acts b price (.exit reason) [⟨.placeOrder (b.exitOrder direction), .error e⟩]
        (.error (.gateway e)) b
  | exited {reason direction ack} (following : b.stop.direction? = some direction) :
      Acts b price (.exit reason) [⟨.placeOrder (b.exitOrder direction), .ok ack⟩]
        (.ok (.exited ack.orderId reason)) { b with stop := b.stop.reset }
  | balanceUnknown {direction e} :
      Acts b price (.enter direction) [⟨.balance, .error e⟩] (.error (.gateway e)) b
  | uncovered {direction balance required} (margin : b.requiredMargin price = .ok required)
      (short : balance < required) :
      Acts b price (.enter direction) [⟨.balance, .ok balance⟩]
        (.ok (.skipped (.margin balance required))) b
  | entryRefused {direction balance required e} (margin : b.requiredMargin price = .ok required)
      (covered : ¬ balance < required) :
      Acts b price (.enter direction)
        [⟨.balance, .ok balance⟩, ⟨.placeOrder (b.entryOrder direction), .error e⟩]
        (.error (.gateway e)) b
  | entryLost {direction balance required ack e} (margin : b.requiredMargin price = .ok required)
      (covered : ¬ balance < required)
      (lost : b.stop.enter direction (ack.averagePrice.getD price) = .error e) :
      Acts b price (.enter direction)
        [⟨.balance, .ok balance⟩, ⟨.placeOrder (b.entryOrder direction), .ok ack⟩]
        (.error (.tracker e)) b
  | entered {direction balance required ack stop level}
      (margin : b.requiredMargin price = .ok required) (covered : ¬ balance < required)
      (followed : b.stop.enter direction (ack.averagePrice.getD price) = .ok stop)
      (leveled : stop.stopPrice? = .ok level) :
      Acts b price (.enter direction)
        [⟨.balance, .ok balance⟩, ⟨.placeOrder (b.entryOrder direction), .ok ack⟩]
        (.ok (.entered ack.orderId direction (ack.averagePrice.getD price))) { b with stop }

theorem follow_yields {b : Bot} {direction : Direction} {price : Decimal} {ack : OrderAck}
    {talk : Talk} {result : Result TradeOutcome} :
    (b.follow direction price ack).Yields talk result ↔ talk = [] ∧
      ((∃ e, b.stop.enter direction (ack.averagePrice.getD price) = .error e ∧
          result = (.error (.tracker e), b)) ∨
        ∃ stop level, b.stop.enter direction (ack.averagePrice.getD price) = .ok stop ∧
          stop.stopPrice? = .ok level ∧
          result = (.ok (.entered ack.orderId direction (ack.averagePrice.getD price)),
            { b with stop })) := by
  simp only [follow]
  cases b.stop.enter direction (ack.averagePrice.getD price) with
  | error e =>
    simp only [pure_eq, yields_done, reduceCtorEq, false_and, exists_false, or_false,
      Except.error.injEq, exists_eq_left', eq_comm (a := result)]
  | ok stop =>
    simp only [yields_bind, yields_ofExcept, pure_eq, yields_done]
    constructor
    · rintro ⟨_, level, _, rfl, ⟨rfl, leveled⟩, rfl, rfl⟩
      exact ⟨rfl, .inr ⟨stop, level, rfl, leveled, rfl⟩⟩
    · rintro ⟨rfl, ⟨_, ⟨⟩, _⟩ | ⟨_, level, ⟨⟩, leveled, rfl⟩⟩
      exact ⟨[], level, [], rfl, ⟨rfl, leveled⟩, rfl, rfl⟩

theorem follow_asks {b : Bot} {direction : Direction} {price : Decimal} {ack : OrderAck}
    {talk : Talk} {q : ExchangeCall} : ¬ (b.follow direction price ack).Asks talk q := by
  intro asked
  simp only [follow] at asked
  split at asked
  · exact asked
  · simp [asks_bind] at asked

theorem act_yields {b after : Bot} {price : Decimal} {decision : Decision} {talk : Talk}
    {outcome : Except BotError TradeOutcome}
    (ended : (b.act price decision).Yields talk (outcome, after)) :
    Acts b price decision talk outcome after := by
  cases decision with
  | hold =>
    obtain ⟨rfl, same⟩ := ended
    obtain ⟨rfl, rfl⟩ := Prod.mk.inj same
    exact .held
  | exit reason =>
    simp only [act, exit] at ended
    cases following : b.stop.direction? with
    | none =>
      simp only [following] at ended
      obtain ⟨rfl, same⟩ := ended
      obtain ⟨rfl, rfl⟩ := Prod.mk.inj same
      exact .nothingToExit following
    | some direction =>
      simp only [following, yields_withReply, pure_eq, yields_done] at ended
      obtain ⟨ack, _, rfl, rfl, same⟩ | ⟨e, rfl, same⟩ := ended
      · obtain ⟨rfl, rfl⟩ := Prod.mk.inj same
        exact .exited following
      · obtain ⟨rfl, rfl⟩ := Prod.mk.inj same
        exact .exitRefused following
  | enter direction =>
    simp only [act, enter, yields_withReply, yields_bind, yields_ofExcept] at ended
    obtain ⟨balance, _, rfl, _, required, rest, rfl, ⟨rfl, margin⟩, ended⟩ | ⟨e, rfl, same⟩ := ended
    · split at ended
      case isTrue short =>
        obtain ⟨rfl, same⟩ := ended
        obtain ⟨rfl, rfl⟩ := Prod.mk.inj same
        exact .uncovered margin short
      case isFalse covered =>
        obtain ⟨ack, _, rfl, placed⟩ | ⟨e, rfl, same⟩ := yields_withReply.mp ended
        · obtain ⟨rfl, ⟨e, lost, same⟩ | ⟨stop, _, followed, leveled, same⟩⟩ :=
            follow_yields.mp placed
          · obtain ⟨rfl, rfl⟩ := Prod.mk.inj same
            exact .entryLost margin covered lost
          · obtain ⟨rfl, rfl⟩ := Prod.mk.inj same
            exact .entered margin covered followed leveled
        · obtain ⟨rfl, rfl⟩ := Prod.mk.inj same
          exact .entryRefused margin covered
    · obtain ⟨rfl, rfl⟩ := Prod.mk.inj same
      exact .balanceUnknown

/-- Every ending of an action is possible. -/
theorem yields_of_acts {b after : Bot} {price : Decimal} {decision : Decision} {talk : Talk}
    {outcome : Except BotError TradeOutcome} (acts : Acts b price decision talk outcome after) :
    (b.act price decision).Yields talk (outcome, after) := by
  have enters : ∀ {direction : Direction} {balance required : Decimal} {rest : Talk}
      {result : Result TradeOutcome}, b.requiredMargin price = .ok required →
      (if balance < required then
        (Program.done (.ok (.skipped (.margin balance required)), b) :
          ExchangeProgram (Result TradeOutcome))
      else b.withReply (.placeOrder (b.entryOrder direction))
        (b.follow direction price)).Yields rest result →
      (b.act price (.enter direction)).Yields (⟨.balance, .ok balance⟩ :: rest) result := by
    intro direction balance required rest result margin ended
    refine yields_withReply.mpr (.inl ⟨balance, rest, rfl, ?_⟩)
    exact yields_bind.mpr ⟨[], required, rest, rfl, yields_ofExcept.mpr ⟨rfl, margin⟩, ended⟩
  cases acts with
  | held => exact ⟨rfl, rfl⟩
  | nothingToExit flat =>
    simp only [act, exit, flat]
    exact ⟨rfl, rfl⟩
  | exitRefused following =>
    simp only [act, exit, following]
    exact yields_withReply.mpr (.inr ⟨_, rfl, rfl⟩)
  | exited following =>
    simp only [act, exit, following]
    exact yields_withReply.mpr (.inl ⟨_, [], rfl, rfl, rfl⟩)
  | balanceUnknown => exact yields_withReply.mpr (.inr ⟨_, rfl, rfl⟩)
  | uncovered margin short =>
    refine enters margin ?_
    rw [if_pos short]
    exact ⟨rfl, rfl⟩
  | entryRefused margin covered =>
    refine enters margin ?_
    rw [if_neg covered]
    exact yields_withReply.mpr (.inr ⟨_, rfl, rfl⟩)
  | entryLost margin covered lost =>
    refine enters margin ?_
    rw [if_neg covered]
    exact yields_withReply.mpr (.inl ⟨_, [], rfl, follow_yields.mpr ⟨rfl, .inl ⟨_, lost, rfl⟩⟩⟩)
  | entered margin covered followed leveled =>
    refine enters margin ?_
    rw [if_neg covered]
    exact yields_withReply.mpr
      (.inl ⟨_, [], rfl, follow_yields.mpr ⟨rfl, .inr ⟨_, _, followed, leveled, rfl⟩⟩⟩)

/-- An order is asked for only where the decision calls for it. -/
theorem act_asks_order {b : Bot} {price : Decimal} {decision : Decision} {talk : Talk}
    {order : Order} (asked : (b.act price decision).Asks talk (.placeOrder order)) :
    (∃ direction, decision = .enter direction ∧ order = b.entryOrder direction) ∨
      ∃ reason direction, decision = .exit reason ∧ b.stop.direction? = some direction ∧
        order = b.exitOrder direction := by
  cases decision with
  | hold => exact asked.elim
  | exit reason =>
    simp only [act, exit] at asked
    cases following : b.stop.direction? with
    | none =>
      simp only [following] at asked
      exact asked.elim
    | some direction =>
      simp only [following, asks_withReply, pure_eq, asks_done, and_false, exists_false,
        or_false] at asked
      exact .inr ⟨reason, direction, rfl, rfl, (ExchangeCall.placeOrder.inj asked.2).symm⟩
  | enter direction =>
    simp only [act, enter, asks_withReply, asks_bind, asks_ofExcept, false_or] at asked
    obtain ⟨_, other⟩ | ⟨balance, _, _, _, required, _, _, _, asked⟩ := asked
    · cases other
    · split at asked
      · exact asked.elim
      · simp only [asks_withReply, follow_asks, and_false, exists_false, or_false] at asked
        exact .inl ⟨direction, rfl, (ExchangeCall.placeOrder.inj asked.2).symm⟩

inductive Executes (b : Bot) : Talk → Except BotError TradeOutcome → Bot → Prop where
  | undecided (pending : b.pending = none) : Executes b [] (.ok (.skipped .noDecision)) b
  | acted {decision price talk outcome after} (pending : b.pending = some (decision, price))
      (acts : Acts { b with pending := none } price decision talk outcome after) :
      Executes b talk outcome after

theorem execute_yields {b after : Bot} {talk : Talk} {outcome : Except BotError TradeOutcome}
    (ended : b.execute.Yields talk (outcome, after)) : Executes b talk outcome after := by
  cases pending : b.pending with
  | none =>
    simp only [execute, pending] at ended
    obtain ⟨rfl, same⟩ := ended
    obtain ⟨rfl, rfl⟩ := Prod.mk.inj same
    exact .undecided pending
  | some decided =>
    simp only [execute, pending] at ended
    exact .acted pending (act_yields ended)

/-- Executing a decision asks for an order as acting on it does. -/
theorem execute_asks_order {b : Bot} {talk : Talk} {order : Order}
    (asked : b.execute.Asks talk (.placeOrder order)) :
    ∃ decision price, b.pending = some (decision, price) ∧
      (({ b with pending := none } : Bot).act price decision).Asks talk (.placeOrder order) := by
  cases pending : b.pending with
  | none =>
    simp only [execute, pending] at asked
    exact asked.elim
  | some decided =>
    simp only [execute, pending] at asked
    exact ⟨decided.1, decided.2, rfl, asked⟩

theorem process_ok {b after : Bot} {snapshot : Snapshot} {price : Decimal} {decision : Decision} :
    b.process snapshot price = .ok (decision, after) ↔
      b.rules.evaluate snapshot b.stop price = .ok decision ∧
        after = { b with pending := some (decision, price) } := by
  simp only [process]
  cases b.rules.evaluate snapshot b.stop price with
  | error f => simp [Functor.map, Except.map]
  | ok d =>
    constructor
    · intro same
      cases same
      exact ⟨rfl, rfl⟩
    · rintro ⟨same, rfl⟩
      cases same
      rfl

/-- How a cycle ends: before the decision with the bot as it was, or by executing the decision. -/
inductive Ticks (b : Bot) : Talk → Except BotError TradeOutcome → Bot → Prop where
  | stopped (idle : b.running = false) : Ticks b [] (.ok (.skipped .botStopped)) b
  | dailyUnknown {e} (running : b.running = true) :
      Ticks b [⟨.candles b.symbol .daily b.trading.dailyLookback, .error e⟩] (.error (.gateway e)) b
  | weeklyUnknown {daily e} (running : b.running = true) :
      Ticks b [⟨.candles b.symbol .daily b.trading.dailyLookback, .ok daily⟩,
        ⟨.candles b.symbol .weekly b.trading.weeklyLookback, .error e⟩] (.error (.gateway e)) b
  | priceUnknown {daily weekly e} (running : b.running = true) :
      Ticks b [⟨.candles b.symbol .daily b.trading.dailyLookback, .ok daily⟩,
        ⟨.candles b.symbol .weekly b.trading.weeklyLookback, .ok weekly⟩,
        ⟨.price b.symbol, .error e⟩] (.error (.gateway e)) b
  | decided {daily weekly price snapshot decision talk outcome after} (running : b.running = true)
      (read : b.pipeline.snapshot daily weekly = .ok snapshot)
      (evaluated : b.rules.evaluate snapshot b.stop price = .ok decision)
      (ended : ({ b with pending := some (decision, price) } : Bot).execute.Yields talk
        (outcome, after)) :
      Ticks b (⟨.candles b.symbol .daily b.trading.dailyLookback, .ok daily⟩ ::
        ⟨.candles b.symbol .weekly b.trading.weeklyLookback, .ok weekly⟩ ::
        ⟨.price b.symbol, .ok price⟩ :: talk) outcome after

theorem tick_yields {b after : Bot} {talk : Talk} {outcome : Except BotError TradeOutcome}
    (ended : b.tick.Yields talk (outcome, after)) : Ticks b talk outcome after := by
  simp only [tick] at ended
  split at ended
  case isFalse idle =>
    obtain ⟨rfl, same⟩ := ended
    obtain ⟨rfl, rfl⟩ := Prod.mk.inj same
    exact .stopped (by simpa using idle)
  case isTrue running =>
    obtain ⟨daily, _, rfl, readDaily⟩ | ⟨e, rfl, same⟩ := yields_withReply.mp ended
    · obtain ⟨weekly, _, rfl, readWeekly⟩ | ⟨e, rfl, same⟩ := yields_withReply.mp readDaily
      · obtain ⟨price, _, rfl, readPrice⟩ | ⟨e, rfl, same⟩ := yields_withReply.mp readWeekly
        · simp only [yields_bind, yields_ofExcept] at readPrice
          obtain ⟨_, snapshot, _, rfl, ⟨rfl, read⟩, _, ⟨decision, decided⟩, rest, rfl,
            ⟨rfl, processed⟩, executed⟩ := readPrice
          obtain ⟨evaluated, rfl⟩ := process_ok.mp processed
          exact .decided running read evaluated executed
        · obtain ⟨rfl, rfl⟩ := Prod.mk.inj same
          exact .priceUnknown running
      · obtain ⟨rfl, rfl⟩ := Prod.mk.inj same
        exact .weeklyUnknown running
    · obtain ⟨rfl, rfl⟩ := Prod.mk.inj same
      exact .dailyUnknown running

/-- A cycle asks for an order only when it has read the candles and the price and decided on them. -/
inductive TickAsks (b : Bot) : Talk → Order → Prop where
  | decided {daily weekly price snapshot decision talk order} (running : b.running = true)
      (read : b.pipeline.snapshot daily weekly = .ok snapshot)
      (evaluated : b.rules.evaluate snapshot b.stop price = .ok decision)
      (asked : ({ b with pending := some (decision, price) } : Bot).execute.Asks talk
        (.placeOrder order)) :
      TickAsks b (⟨.candles b.symbol .daily b.trading.dailyLookback, .ok daily⟩ ::
        ⟨.candles b.symbol .weekly b.trading.weeklyLookback, .ok weekly⟩ ::
        ⟨.price b.symbol, .ok price⟩ :: talk) order

theorem tick_asks_order {b : Bot} {talk : Talk} {order : Order}
    (asked : b.tick.Asks talk (.placeOrder order)) : TickAsks b talk order := by
  simp only [tick] at asked
  split at asked
  case isFalse => exact asked.elim
  case isTrue running =>
    simp only [asks_withReply, asks_bind, asks_ofExcept, yields_ofExcept, reduceCtorEq, and_false,
      false_or] at asked
    obtain ⟨daily, _, rfl, weekly, _, rfl, price, _, rfl, _, snapshot, _, rfl, ⟨rfl, read⟩, _,
      ⟨decision, decided⟩, _, rfl, ⟨rfl, processed⟩, asked⟩ := asked
    obtain ⟨evaluated, rfl⟩ := process_ok.mp processed
    exact .decided running read evaluated asked

theorem asks_of_tickAsks {b : Bot} {talk : Talk} {order : Order} (asks : TickAsks b talk order) :
    b.tick.Asks talk (.placeOrder order) := by
  cases asks with
  | @decided daily weekly price snapshot decision talk _ running read evaluated asked =>
    rw [tick, if_pos running]
    refine asks_withReply.mpr (.inr ⟨daily, _, rfl, ?_⟩)
    refine asks_withReply.mpr (.inr ⟨weekly, _, rfl, ?_⟩)
    refine asks_withReply.mpr (.inr ⟨price, _, rfl, ?_⟩)
    refine asks_bind.mpr (.inr ⟨[], snapshot, _, rfl, yields_ofExcept.mpr ⟨rfl, read⟩, ?_⟩)
    refine asks_bind.mpr (.inr ⟨[], (decision, _), _, rfl, ?_, asked⟩)
    exact yields_ofExcept.mpr ⟨rfl, process_ok.mpr ⟨evaluated, rfl⟩⟩

/-- How a start ends. A bot that is running asks for nothing. -/
inductive Starts (b : Bot) : Talk → Except BotError Unit → Bot → Prop where
  | already (running : b.running = true) : Starts b [] (.ok ()) b
  | refused {e} (idle : b.running = false) :
      Starts b [⟨.setLeverage b.symbol b.trading.leverage, .error e⟩] (.error (.gateway e)) b
  | started (idle : b.running = false) :
      Starts b [⟨.setLeverage b.symbol b.trading.leverage, .ok ()⟩] (.ok ())
        { b with running := true }

theorem start_yields {b after : Bot} {talk : Talk} {outcome : Except BotError Unit}
    (ended : b.start.Yields talk (outcome, after)) : Starts b talk outcome after := by
  simp only [start] at ended
  split at ended
  case isTrue running =>
    obtain ⟨rfl, same⟩ := ended
    obtain ⟨rfl, rfl⟩ := Prod.mk.inj same
    exact .already running
  case isFalse idle =>
    have idle : b.running = false := by simpa using idle
    obtain ⟨⟨⟩, _, rfl, rfl, same⟩ | ⟨e, rfl, same⟩ := yields_withReply.mp ended
    · obtain ⟨rfl, rfl⟩ := Prod.mk.inj same
      exact .started idle
    · obtain ⟨rfl, rfl⟩ := Prod.mk.inj same
      exact .refused idle

end FuturesDesk.Bot
