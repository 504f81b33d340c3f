import FuturesDesk.Bot.Session
import FuturesDesk.Proofs.Bot.Alternation

/-! What one cycle says to the exchange. It makes its calls in a fixed order and the first that
fails is the last. The failure is what the cycle reports, and only a refusal of the credentials
among them halts the bot. -/
namespace FuturesDesk
open Program

theorem GatewayError.isFatal_iff {e : GatewayError} : e.isFatal = true ↔ ∃ d, e = .unauthorized d := by
  cases e <;> simp [GatewayError.isFatal]

namespace Bot

/-- No call was answered by a refusal of the credentials. -/
def Calm (talk : Talk) : Prop := ∀ x ∈ talk, ∀ d, x.2 ≠ .error (.unauthorized d)

/-- Calls one after the other, cut at the first that fails. -/
inductive InTurn : List ExchangeCall → Talk → Option GatewayError → Prop where
  | nil : InTurn [] [] none
  | failed {c calls e} : InTurn (c :: calls) [⟨c, .error e⟩] (some e)
  | answered {c calls value talk failure} (rest : InTurn calls talk failure) :
      InTurn (c :: calls) (⟨c, .ok value⟩ :: talk) failure

namespace InTurn
variable {calls : List ExchangeCall} {talk : Talk} {e : GatewayError}

theorem last (turn : InTurn calls talk (some e)) :
    ∃ before c, talk = before ++ [⟨c, .error e⟩] ∧ Calm before := by
  generalize cut : some e = failure at turn
  induction turn with
  | nil => cases cut
  | @failed c =>
    cases cut
    exact ⟨[], c, rfl, by simp [Calm]⟩
  | @answered c _ value _ _ _ ih =>
    obtain ⟨before, last, rfl, calm⟩ := ih cut
    refine ⟨⟨c, .ok value⟩ :: before, last, rfl, ?_⟩
    exact List.forall_mem_cons.mpr ⟨by simp, calm⟩

theorem calm {failure : Option GatewayError} (turn : InTurn calls talk failure)
    (other : ∀ d, failure ≠ some (.unauthorized d)) : Calm talk := by
  induction turn with
  | nil => simp [Calm]
  | @failed c _ e =>
    have harmless : ∀ d, (.error e : c.Reply) ≠ .error (.unauthorized d) := by
      rintro d ⟨⟩
      exact other d rfl
    exact List.forall_mem_singleton.mpr harmless
  | answered _ ih => exact List.forall_mem_cons.mpr ⟨by simp, ih other⟩

end InTurn

end Bot

namespace TradingConfig

def startCall (t : TradingConfig) : ExchangeCall := .setLeverage t.symbol t.leverage

def reads (t : TradingConfig) : List ExchangeCall :=
  [.candles t.symbol .daily t.dailyLookback, .candles t.symbol .weekly t.weeklyLookback,
    .price t.symbol]

/-- The calls of an action: none, the balance and perhaps an entry, or an exit. -/
inductive Acting (t : TradingConfig) : List ExchangeCall → Prop where
  | nothing : Acting t []
  | uncovered : Acting t [.balance]
  | entry {direction order} (isEntry : t.IsEntry direction order) :
      Acting t [.balance, .placeOrder order]
  | exit {direction order} (isExit : t.IsExit direction order) : Acting t [.placeOrder order]

/-- The conversation of a tick, with the failure that cut it. -/
def Ticked (t : TradingConfig) (talk : Bot.Talk) (failure : Option GatewayError) : Prop :=
  ∃ calls, t.Acting calls ∧ Bot.InTurn (t.reads ++ calls) talk failure

end TradingConfig

namespace Bot
variable {b after : Bot} {talk : Talk} {outcome : Except BotError TradeOutcome}

/-- The failure of a call is the outcome. Without one there may be an error, but none that halts. -/
def Reports (outcome : Except BotError TradeOutcome) : Option GatewayError → Prop
  | some e => outcome = .error (.gateway e)
  | none => ∀ e, outcome = .error e → e.isFatal = false

theorem Reports.of_ok (outcome : TradeOutcome) : Reports (.ok outcome) none := by
  rintro _ ⟨⟩

theorem hold_reports (b : Bot) (price : Decimal) : Reports (b.hold price).1 none := by
  simp only [hold]
  split
  · cases b.stop.observe price with
    | ok stop => exact .of_ok _
    | error e =>
      rintro _ ⟨⟩
      rfl
  · exact .of_ok _

theorem acts_inTurn {decision : Decision} {price : Decimal}
    (acts : Acts b price decision talk outcome after) :
    (∃ calls failure, b.trading.Acting calls ∧ InTurn calls talk failure ∧
      Reports outcome failure) ∧ after.trading = b.trading ∧ after.running = b.running := by
  cases acts with
  | held =>
    obtain ⟨stop, same, _⟩ := hold_held b price
    refine ⟨⟨[], none, .nothing, .nil, hold_reports b price⟩, ?_⟩
    rw [same]
    exact ⟨rfl, rfl⟩
  | nothingToExit => exact ⟨⟨[], none, .nothing, .nil, .of_ok _⟩, rfl, rfl⟩
  | @exitRefused _ direction e =>
    exact ⟨⟨_, some e, .exit (exitOrder_isExit b direction), .failed, rfl⟩, rfl, rfl⟩
  | @exited _ direction =>
    exact ⟨⟨_, none, .exit (exitOrder_isExit b direction), .answered .nil, .of_ok _⟩, rfl, rfl⟩
  | @balanceUnknown direction e => exact ⟨⟨_, some e, .uncovered, .failed, rfl⟩, rfl, rfl⟩
  | uncovered => exact ⟨⟨_, none, .uncovered, .answered .nil, .of_ok _⟩, rfl, rfl⟩
  | @entryRefused direction _ _ e =>
    have placed := entryOrder_isEntry b direction
    exact ⟨⟨_, some e, .entry placed, .answered .failed, rfl⟩, rfl, rfl⟩
  | @entryLost direction =>
    refine ⟨⟨_, none, .entry (entryOrder_isEntry b direction), .answered (.answered .nil), ?_⟩,
      rfl, rfl⟩
    rintro _ ⟨⟩
    rfl
  | @entered direction =>
    have placed := entryOrder_isEntry b direction
    exact ⟨⟨_, none, .entry placed, .answered (.answered .nil), .of_ok _⟩, rfl, rfl⟩

theorem execute_inTurn (ended : b.execute.Yields talk (outcome, after)) :
    (∃ calls failure, b.trading.Acting calls ∧ InTurn calls talk failure ∧
      Reports outcome failure) ∧ after.trading = b.trading ∧ after.running = b.running := by
  cases execute_yields ended with
  | undecided => exact ⟨⟨[], none, .nothing, .nil, .of_ok _⟩, rfl, rfl⟩
  | acted _ acts => exact acts_inTurn (b := { b with pending := none }) acts

theorem tick_ticked (running : b.running = true) (ended : b.tick.Yields talk (outcome, after)) :
    (∃ failure, b.trading.Ticked talk failure ∧ Reports outcome failure) ∧
      after.trading = b.trading ∧ after.running = true := by
  cases tick_yields ended with
  | stopped idle =>
    rw [running] at idle
    cases idle
  | @dailyUnknown e => exact ⟨⟨some e, ⟨[], .nothing, .failed⟩, rfl⟩, rfl, running⟩
  | @weeklyUnknown _ e => exact ⟨⟨some e, ⟨[], .nothing, .answered .failed⟩, rfl⟩, rfl, running⟩
  | @priceUnknown _ _ e =>
    exact ⟨⟨some e, ⟨[], .nothing, .answered (.answered .failed)⟩, rfl⟩, rfl, running⟩
  | decided _ _ _ executed =>
    obtain ⟨⟨calls, failure, acting, turn, reports⟩, trading, still⟩ := execute_inTurn executed
    exact ⟨⟨failure, ⟨calls, acting, .answered (.answered (.answered turn))⟩, reports⟩, trading,
      still.trans running⟩

inductive Cycles (b : Bot) : Talk → Option GatewayError → Bot → Prop where
  | refused {e} (idle : b.running = false) : Cycles b [⟨b.trading.startCall, .error e⟩] (some e) b
  | started {talk failure after} (idle : b.running = false)
      (ticked : b.trading.Ticked talk failure) (trading : after.trading = b.trading)
      (running : after.running = true) :
      Cycles b (⟨b.trading.startCall, .ok ()⟩ :: talk) failure after
  | ticked {talk failure after} (running : b.running = true)
      (ticked : b.trading.Ticked talk failure) (trading : after.trading = b.trading)
      (still : after.running = true) : Cycles b talk failure after

theorem Cycles.inTurn {failure : Option GatewayError} (cycles : Cycles b talk failure after) :
    ∃ calls, InTurn calls talk failure := by
  cases cycles with
  | refused => exact ⟨[b.trading.startCall], .failed⟩
  | started _ ticked =>
    obtain ⟨calls, _, turn⟩ := ticked
    exact ⟨_, .answered turn⟩
  | ticked _ ticked =>
    obtain ⟨calls, _, turn⟩ := ticked
    exact ⟨_, turn⟩

theorem Starts.cycles {ready : Bot} {first : Talk} {failure : Option GatewayError}
    (starts : Starts b first (.ok ()) ready) (ticked : ready.trading.Ticked talk failure)
    (trading : after.trading = ready.trading) (running : after.running = true) :
    Cycles b (first ++ talk) failure after := by
  cases starts with
  | already already => exact .ticked already ticked trading running
  | started idle => exact .started idle ticked trading running

theorem Starts.running {ready : Bot} {first : Talk} (starts : Starts b first (.ok ()) ready) :
    ready.running = true := by
  cases starts with
  | already running => exact running
  | started => rfl

/-- A cycle gives an error exactly if its credentials were refused. -/
theorem cycle_yields {result : Except BotError Unit} (ended : b.cycle.Yields talk (result, after)) :
    ∃ failure cycled, Cycles b talk failure cycled ∧
      ((∃ d, failure = some (.unauthorized d) ∧ result = .error (.gateway (.unauthorized d))) ∨
        (∀ d, failure ≠ some (.unauthorized d)) ∧ result = .ok () ∧ after = cycled) := by
  simp only [cycle, yields_bind] at ended
  obtain ⟨first, ⟨started, ready⟩, rest, rfl, starts, ended⟩ := ended
  cases started with
  | error e =>
    obtain ⟨rfl, same⟩ := ended
    obtain ⟨rfl, rfl⟩ := Prod.mk.inj same
    cases start_yields starts with
    | @refused e idle =>
      rw [List.append_nil]
      refine ⟨some e, _, .refused idle, ?_⟩
      split
      case isTrue fatal =>
        obtain ⟨d, rfl⟩ := GatewayError.isFatal_iff.mp fatal
        exact .inl ⟨d, rfl, rfl⟩
      case isFalse harmless =>
        refine .inr ⟨?_, rfl, rfl⟩
        rintro d ⟨⟩
        exact harmless rfl
  | ok =>
    have begun := start_yields starts
    simp only [yields_bind] at ended
    obtain ⟨ticks, ⟨outcome, cycled⟩, rest, rfl, ticked, ended⟩ := ended
    obtain ⟨⟨failure, said, reports⟩, trading, still⟩ := tick_ticked begun.running ticked
    have cycles := begun.cycles said trading still
    cases outcome with
    | error e =>
      obtain ⟨rfl, same⟩ := ended
      rw [List.append_nil]
      refine ⟨failure, cycled, cycles, ?_⟩
      split at same
      case isTrue fatal =>
        obtain ⟨rfl, rfl⟩ := Prod.mk.inj same
        cases failure with
        | none =>
          rw [reports e rfl] at fatal
          cases fatal
        | some g =>
          cases reports
          obtain ⟨d, rfl⟩ := GatewayError.isFatal_iff.mp fatal
          exact .inl ⟨d, rfl, rfl⟩
      case isFalse harmless =>
        obtain ⟨rfl, rfl⟩ := Prod.mk.inj same
        refine .inr ⟨?_, rfl, rfl⟩
        rintro d rfl
        cases reports
        exact harmless rfl
    | ok outcome =>
      obtain ⟨rfl, same⟩ := ended
      obtain ⟨rfl, rfl⟩ := Prod.mk.inj same
      rw [List.append_nil]
      refine ⟨failure, cycled, cycles, .inr ⟨?_, rfl, rfl⟩⟩
      rintro d rfl
      cases reports

end Bot

end FuturesDesk
