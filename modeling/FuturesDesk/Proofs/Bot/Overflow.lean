import FuturesDesk.Bot.Session
import FuturesDesk.Proofs.Bot.Calls

/-! When a session breaks off. It does so only where a decimal computation of a tick has no result:
a decision, the margin that an entry needs, or the stop price that follows an entry. What it was
computed from is what the exchange said last. -/
namespace FuturesDesk.Bot
open Program

theorem faults_withReply {α : Type} {b : Bot} {c : ExchangeCall}
    {next : c.Value → ExchangeProgram (Result α)} {talk : Talk} {cause : Decimal.Fault} :
    (b.withReply c next).Faults talk cause ↔
      ∃ value rest, talk = ⟨c, .ok value⟩ :: rest ∧ (next value).Faults rest cause := by
  simp only [withReply, ExchangeProgram.call, Program.question, ask_bind, done_bind, faults_ask]
  constructor
  · rintro ⟨reply, rest, rfl, faulted⟩
    cases reply with
    | ok value => exact ⟨value, rest, rfl, faulted⟩
    | error e => exact faulted.elim
  · rintro ⟨value, rest, rfl, faulted⟩
    exact ⟨.ok value, rest, rfl, faulted⟩

/-- Acting on a decision at a price breaks off: only an entry does. -/
inductive ActOverflows (b : Bot) (price : Decimal) : Decision → Talk → Decimal.Fault → Prop where
  | margin {direction balance cause} (failed : b.requiredMargin price = .error cause) :
      ActOverflows b price (.enter direction) [⟨.balance, .ok balance⟩] cause
  | level {direction balance required ack stop cause}
      (margin : b.requiredMargin price = .ok required) (covered : ¬ balance < required)
      (followed : b.stop.enter direction (ack.averagePrice.getD price) = .ok stop)
      (failed : stop.stopPrice? = .error cause) :
      ActOverflows b price (.enter direction)
        [⟨.balance, .ok balance⟩, ⟨.placeOrder (b.entryOrder direction), .ok ack⟩] cause

theorem act_faults {b : Bot} {price : Decimal} {decision : Decision} {talk : Talk}
    {cause : Decimal.Fault} (faulted : (b.act price decision).Faults talk cause) :
    ActOverflows b price decision talk cause := by
  cases decision with
  | hold => exact faulted.elim
  | exit reason =>
    simp only [act, exit] at faulted
    split at faulted
    · exact faulted.elim
    · simp [faults_withReply] at faulted
  | enter direction =>
    simp only [act, enter, faults_withReply, faults_bind, faults_ofExcept, yields_ofExcept]
      at faulted
    obtain ⟨balance, _, rfl, ⟨rfl, failed⟩ | ⟨_, required, _, rfl, ⟨rfl, margin⟩, faulted⟩⟩ :=
      faulted
    · exact .margin failed
    · split at faulted
      case isTrue => exact faulted.elim
      case isFalse covered =>
        obtain ⟨ack, _, rfl, follows⟩ := faults_withReply.mp faulted
        simp only [follow] at follows
        split at follows
        · exact follows.elim
        case h_2 stop followed =>
          simp only [faults_bind, faults_ofExcept, pure_eq, faults_done, and_false, exists_false,
            or_false] at follows
          obtain ⟨rfl, failed⟩ := follows
          exact .level margin covered followed failed

inductive TickOverflows (b : Bot) : Talk → Decimal.Fault → Prop where
  | readings {daily weekly price cause} (failed : b.pipeline.snapshot daily weekly = .error cause) :
      TickOverflows b [⟨.candles b.symbol .daily b.trading.dailyLookback, .ok daily⟩,
        ⟨.candles b.symbol .weekly b.trading.weeklyLookback, .ok weekly⟩,
        ⟨.price b.symbol, .ok price⟩] cause
  | decision {daily weekly price snapshot cause}
      (read : b.pipeline.snapshot daily weekly = .ok snapshot)
      (failed : b.rules.evaluate snapshot b.stop price = .error cause) :
      TickOverflows b [⟨.candles b.symbol .daily b.trading.dailyLookback, .ok daily⟩,
        ⟨.candles b.symbol .weekly b.trading.weeklyLookback, .ok weekly⟩,
        ⟨.price b.symbol, .ok price⟩] cause
  | action {daily weekly price snapshot decision talk cause}
      (read : b.pipeline.snapshot daily weekly = .ok snapshot)
      (evaluated : b.rules.evaluate snapshot b.stop price = .ok decision)
      (overflows : ActOverflows { b with pending := none } price decision talk cause) :
      TickOverflows b (⟨.candles b.symbol .daily b.trading.dailyLookback, .ok daily⟩ ::
        ⟨.candles b.symbol .weekly b.trading.weeklyLookback, .ok weekly⟩ ::
        ⟨.price b.symbol, .ok price⟩ :: talk) cause

theorem process_error {b : Bot} {snapshot : Snapshot} {price : Decimal} {cause : Decimal.Fault} :
    b.process snapshot price = .error cause ↔
      b.rules.evaluate snapshot b.stop price = .error cause := by
  simp only [process]
  cases b.rules.evaluate snapshot b.stop price <;> simp [Functor.map, Except.map]

theorem tick_faults {b : Bot} {talk : Talk} {cause : Decimal.Fault}
    (faulted : b.tick.Faults talk cause) : TickOverflows b talk cause := by
  simp only [tick] at faulted
  split at faulted
  · simp only [faults_withReply, faults_bind, faults_ofExcept, yields_ofExcept] at faulted
    obtain ⟨daily, _, rfl, weekly, _, rfl, price, _, rfl, ⟨rfl, failed⟩ |
      ⟨_, snapshot, _, rfl, ⟨rfl, read⟩, ⟨rfl, failed⟩ |
        ⟨_, ⟨decision, decided⟩, _, rfl, ⟨rfl, processed⟩, executed⟩⟩⟩ := faulted
    · exact .readings failed
    · exact .decision read (process_error.mp failed)
    · obtain ⟨evaluated, rfl⟩ := process_ok.mp processed
      exact .action read evaluated (act_faults executed)
  · exact faulted.elim

/-- A session breaks off in a tick of the bot that was waiting for it. -/
inductive Overflows (b₀ : Bot) : List SessionEvent → Talk → Decimal.Fault → Prop where
  | tick {before rest b said first ready talk cause}
      (waits : (b₀.session before).Yields said (.waiting b)) (starts : Starts b first (.ok ()) ready)
      (overflows : TickOverflows ready talk cause) :
      Overflows b₀ (before ++ .tick :: rest) (said ++ (first ++ talk)) cause

theorem start_faults {b : Bot} {talk : Talk} {cause : Decimal.Fault} :
    ¬ b.start.Faults talk cause := by
  intro faulted
  simp only [start] at faulted
  split at faulted
  · exact faulted
  · simp [faults_withReply] at faulted

theorem cycle_faults {b : Bot} {talk : Talk} {cause : Decimal.Fault}
    (faulted : b.cycle.Faults talk cause) :
    ∃ first ready rest, talk = first ++ rest ∧ Starts b first (.ok ()) ready ∧
      TickOverflows ready rest cause := by
  simp only [cycle, faults_bind, start_faults, false_or] at faulted
  obtain ⟨first, ⟨started, ready⟩, rest, rfl, starts, faulted⟩ := faulted
  cases started with
  | error e => exact faulted.elim
  | ok =>
    obtain ticking | ⟨_, ⟨outcome, after⟩, _, _, _, ended⟩ := faults_bind.mp faulted
    · exact ⟨first, ready, rest, rfl, start_yields starts, tick_faults ticking⟩
    · cases outcome <;> exact ended.elim

theorem next_faults {state : SessionState} {e : SessionEvent} {talk : Talk}
    {cause : Decimal.Fault} (faulted : (state.next e).Faults talk cause) :
    ∃ b, state = .waiting b ∧ e = .tick ∧ b.cycle.Faults talk cause := by
  cases state with
  | ended => exact faulted.elim
  | waiting b =>
    cases e with
    | shutdown => exact faulted.elim
    | tick =>
      refine ⟨b, rfl, rfl, ?_⟩
      obtain cycling | ⟨_, ⟨result, after⟩, _, _, _, ended⟩ := faults_bind.mp faulted
      · exact cycling
      · cases result <;> exact ended.elim

end FuturesDesk.Bot
