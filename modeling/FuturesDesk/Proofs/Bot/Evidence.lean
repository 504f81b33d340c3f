import FuturesDesk.Proofs.Bot.Pending
import FuturesDesk.Proofs.Indicator.Availability
import FuturesDesk.Proofs.Strategy.Decision

/-! The data behind an order. A cycle fetches a window of candles for each timeframe and decides on
the readings over them, so an order rests on the windows of its own cycle: none is placed where one
of them is short or out of order for a condition that called for it. -/
namespace FuturesDesk
open Program

/-- Parameters are made of the parts of the draft, which has no problems. -/
theorem BotDraft.build_ok {d : BotDraft} {params : BotParams} (built : d.build = .ok params) :
    d.pipeline = some params.pipeline ∧ params.rules.entry = d.entry ∧
      params.rules.exit = d.exit ∧ d.violations = [] := by
  simp only [build] at built
  split at built
  case h_1 direction pipeline stop trading _ found _ _ =>
    split at built
    case isTrue sound =>
      cases built
      exact ⟨found, rfl, rfl, List.isEmpty_iff.mp sound⟩
    case isFalse => cases built
  case h_2 => cases built

theorem BotDraft.entry_ne_nil {d : BotDraft} (sound : d.violations = []) : d.entry ≠ [] := by
  intro empty
  simp [violations, Rules.violations, empty] at sound

namespace Bot
variable {b₀ b after : Bot} {talk : Talk} {order : Order}

/-- The parts of a bot that it decides with. -/
structure SameMeans (b after : Bot) : Prop where
  pipeline : after.pipeline = b.pipeline
  rules : after.rules = b.rules

theorem acts_sameMeans {decision : Decision} {price : Decimal}
    {outcome : Except BotError TradeOutcome} (acts : Acts b price decision talk outcome after) :
    SameMeans b after := by
  cases acts with
  | held =>
    obtain ⟨stop, same, _⟩ := hold_held b price
    rw [same]
    exact ⟨rfl, rfl⟩
  | _ => exact ⟨rfl, rfl⟩

theorem execute_sameMeans {outcome : Except BotError TradeOutcome}
    (ended : b.execute.Yields talk (outcome, after)) : SameMeans b after := by
  cases execute_yields ended with
  | undecided => exact ⟨rfl, rfl⟩
  | acted _ acts => exact ⟨(acts_sameMeans acts).pipeline, (acts_sameMeans acts).rules⟩

theorem call_sameMeans (c : Call) (ended : (c.program b).Yields talk after) :
    SameMeans b after := by
  cases c with
  | start =>
    obtain ⟨outcome, started⟩ := yields_second.mp ended
    cases start_yields started <;> exact ⟨rfl, rfl⟩
  | process snapshot price =>
    obtain ⟨decision, processed⟩ := yields_second.mp ended
    obtain ⟨_, rfl⟩ := process_ok.mp (yields_ofExcept.mp processed).2
    exact ⟨rfl, rfl⟩
  | execute =>
    obtain ⟨outcome, executed⟩ := yields_second.mp ended
    exact execute_sameMeans executed
  | tick =>
    obtain ⟨outcome, ticked⟩ := yields_second.mp ended
    cases tick_yields ticked with
    | decided _ _ _ executed =>
      exact ⟨(execute_sameMeans executed).pipeline, (execute_sameMeans executed).rules⟩
    | _ => exact ⟨rfl, rfl⟩

theorem Reaches.sameMeans (reached : Reaches b₀ b) : SameMeans b₀ b := by
  induction reached with
  | new => exact ⟨rfl, rfl⟩
  | call _ c ended ih =>
    have step := call_sameMeans c ended
    exact ⟨step.pipeline.trans ih.pipeline, step.rules.trans ih.rules⟩
  | halted _ ih => exact ⟨ih.pipeline, ih.rules⟩

/-- The conversation of a cycle that was given a window of candles for each timeframe. -/
def Fetches (b : Bot) (window : Timeframe → List Candle) (talk : Talk) : Prop :=
  ∃ rest, talk = ⟨.candles b.symbol .daily b.trading.dailyLookback, .ok (window .daily)⟩ ::
    ⟨.candles b.symbol .weekly b.trading.weeklyLookback, .ok (window .weekly)⟩ :: rest

def windows (daily weekly : List Candle) : Timeframe → List Candle
  | .daily => daily
  | .weekly => weekly

/-- A bot that compares readings of indicators which configurations can name. -/
structure Compares (b : Bot) (entry exit : List IndicatorComparison) : Prop where
  usual : b.pipeline.IsUsual
  entry : b.rules.entry = entry.map (·.toCondition)
  exit : b.rules.exit = exit.map (·.toCondition)

structure Decided (b : Bot) (window : Timeframe → List Candle) (price : Decimal)
    (decision : Decision) (snapshot : Snapshot) : Prop where
  read : b.pipeline.snapshot (window .daily) (window .weekly) = .ok snapshot
  decides : b.rules.Decides snapshot b.stop price decision

namespace Compares
variable {entry exit : List IndicatorComparison} {window : Timeframe → List Candle}
  {price : Decimal} {snapshot : Snapshot}

/-- An entry rests on the data of all entry conditions. -/
theorem entry_hasData (compares : Compares b entry exit) {direction : Direction}
    (decided : b.Decided window price (.enter direction) snapshot) :
    ∀ c ∈ entry, c.HasData b.pipeline window := by
  intro c member
  obtain ⟨read, decides⟩ := decided
  cases decides with
  | entered _ all =>
    have holds : c.toCondition.holds snapshot = true := by
      apply all
      rw [compares.entry]
      exact List.mem_map_of_mem member
    exact IndicatorComparison.hasData_of_holds compares.usual read holds

/-- An exit rests on a stop that was reached or on the data of the condition it names. -/
theorem exit_hasData (compares : Compares b entry exit) {reason : ExitReason}
    (decided : b.Decided window price (.exit reason) snapshot) :
    (∃ level, reason = .trailingStop level ∧ b.stop.triggeredStop? price = .ok (some level)) ∨
      ∃ c ∈ exit, reason = .condition c.name ∧ c.HasData b.pipeline window := by
  obtain ⟨read, decides⟩ := decided
  cases decides with
  | trailed _ reached => exact .inl ⟨_, rfl, reached⟩
  | left _ _ first =>
    have member := List.mem_of_find?_eq_some first
    rw [compares.exit] at member
    obtain ⟨c, listed, rfl⟩ := List.mem_map.mp member
    have holds : c.holds snapshot = true :=
      List.find?_some (p := fun c : Condition => c.holds snapshot) first
    exact .inr ⟨c, listed, rfl, IndicatorComparison.hasData_of_holds compares.usual read holds⟩

end Compares

theorem pipeline_of_built {draft : BotDraft} {params : BotParams} {pipeline : Pipeline}
    (built : draft.build = .ok params) (computed : draft.pipeline = some pipeline)
    (reached : Reaches (.ofParams params) b) : b.pipeline = pipeline := by
  obtain ⟨given, _⟩ := BotDraft.build_ok built
  have same : params.pipeline = pipeline := Option.some.inj (given.symm.trans computed)
  exact reached.sameMeans.pipeline.trans same

/-- A bot keeps to the comparisons and the indicators that its draft named. -/
theorem compares_of_built {draft : BotDraft} {params : BotParams}
    {entry exit : List IndicatorComparison} {pipeline : Pipeline} (built : draft.build = .ok params)
    (entries : draft.entry = entry.map (·.toCondition))
    (exits : draft.exit = exit.map (·.toCondition)) (computed : draft.pipeline = some pipeline)
    (usual : pipeline = .standard ∨ ∃ names, Pipeline.ofNames names = .ok pipeline)
    (reached : Reaches (.ofParams params) b) : Compares b entry exit := by
  obtain ⟨_, sameEntry, sameExit, _⟩ := BotDraft.build_ok built
  have means : SameMeans (.ofParams params) b := reached.sameMeans
  refine ⟨?_, ?_, ?_⟩
  · rw [pipeline_of_built built computed reached]
    obtain rfl | ⟨names, named⟩ := usual
    · exact Pipeline.standard_isUsual
    · exact Pipeline.ofNames_isUsual named
  · rw [means.rules]
    exact sameEntry.trans entries
  · rw [means.rules]
    exact sameExit.trans exits

/-- A cycle that asks for an order has decided on it by the windows that it fetched. -/
theorem tick_asks_decided (asked : b.tick.Asks talk (.placeOrder order)) :
    ∃ window price decision snapshot, b.Fetches window talk ∧
      ⟨.price b.symbol, .ok price⟩ ∈ talk ∧ b.Decided window price decision snapshot ∧
      ((∃ direction, decision = .enter direction ∧ order.reduceOnly = false) ∨
        ∃ reason, decision = .exit reason ∧ order.reduceOnly = true) := by
  cases tick_asks_order asked with
  | @decided daily weekly price snapshot decision _ _ _ read evaluated asked =>
    refine ⟨windows daily weekly, price, decision, snapshot, ⟨_, rfl⟩, by simp,
      ⟨read, Rules.decides evaluated⟩, ?_⟩
    obtain ⟨_, _, pending, asked⟩ := execute_asks_order asked
    cases pending
    obtain ⟨direction, rfl, rfl⟩ | ⟨reason, direction, rfl, _, rfl⟩ := act_asks_order asked
    · exact .inl ⟨direction, rfl, rfl⟩
    · exact .inr ⟨reason, rfl, rfl⟩

theorem acts_exited {price : Decimal} {decision : Decision} {id : String} {reason : ExitReason}
    {outcome : Except BotError TradeOutcome} (acts : Acts b price decision talk outcome after)
    (exited : outcome = .ok (.exited id reason)) : decision = .exit reason := by
  cases acts with
  | held =>
    simp only [hold] at exited
    split at exited
    · split at exited <;> cases exited
    · cases exited
  | exited =>
    cases exited
    rfl
  | _ => cases exited

theorem tick_exited_decided {id : String} {reason : ExitReason}
    (ended : b.tick.Yields talk (.ok (.exited id reason), after)) :
    ∃ window price snapshot, b.Fetches window talk ∧
      b.Decided window price (.exit reason) snapshot := by
  cases tick_yields ended with
  | @decided daily weekly price snapshot decision _ _ _ _ read evaluated executed =>
    refine ⟨windows daily weekly, price, snapshot, ⟨_, rfl⟩, read, ?_⟩
    cases execute_yields executed with
    | acted pending acts =>
      cases pending
      obtain rfl := acts_exited acts rfl
      exact Rules.decides evaluated

/-- No cycle orders on missing, short or disordered data. Of a bot that was built from comparisons
over indicators that configurations can name, an entry order rests on sufficient candles for every
reading of every entry condition, of which there is one at least. An exit order rests on the
trailing stop or on sufficient candles for an exit condition, and an exit that names a condition on
those for it. -/
theorem orders_rest_on_data {draft : BotDraft} {params : BotParams}
    {entry exit : List IndicatorComparison} {pipeline : Pipeline} (built : draft.build = .ok params)
    (entries : draft.entry = entry.map (·.toCondition))
    (exits : draft.exit = exit.map (·.toCondition)) (computed : draft.pipeline = some pipeline)
    (usual : pipeline = .standard ∨ ∃ names, Pipeline.ofNames names = .ok pipeline)
    (reached : Reaches (.ofParams params) b) :
    (∀ talk order, b.tick.Asks talk (.placeOrder order) → order.reduceOnly = false →
      entry ≠ [] ∧ ∃ window, b.Fetches window talk ∧ ∀ c ∈ entry, c.HasData pipeline window) ∧
    (∀ talk order, b.tick.Asks talk (.placeOrder order) → order.reduceOnly = true →
      ∃ window, b.Fetches window talk ∧
        ((∃ price level, ⟨.price b.symbol, .ok price⟩ ∈ talk ∧
            b.stop.triggeredStop? price = .ok (some level)) ∨
          ∃ c ∈ exit, c.HasData pipeline window)) ∧
    ∀ talk id name after, b.tick.Yields talk (.ok (.exited id (.condition name)), after) →
      ∃ window, b.Fetches window talk ∧ ∃ c ∈ exit, c.name = name ∧ c.HasData pipeline window := by
  have compares := compares_of_built built entries exits computed usual reached
  have same : b.pipeline = pipeline := pipeline_of_built built computed reached
  rw [← same]
  refine ⟨?entered, ?left, ?named⟩
  case entered =>
    intro talk order asked isEntry
    obtain ⟨window, price, decision, snapshot, fetched, _, decided, kinds⟩ :=
      tick_asks_decided asked
    obtain ⟨direction, rfl, _⟩ | ⟨_, _, isExit⟩ := kinds
    · refine ⟨?_, window, fetched, compares.entry_hasData decided⟩
      rintro rfl
      exact BotDraft.entry_ne_nil (BotDraft.build_ok built).2.2.2 entries
    · rw [isEntry] at isExit
      cases isExit
  case left =>
    intro talk order asked isExit
    obtain ⟨window, price, decision, snapshot, fetched, priced, decided, kinds⟩ :=
      tick_asks_decided asked
    obtain ⟨_, _, isEntry⟩ | ⟨reason, rfl, _⟩ := kinds
    · rw [isExit] at isEntry
      cases isEntry
    · refine ⟨window, fetched, ?_⟩
      obtain ⟨level, _, hit⟩ | ⟨c, listed, _, backed⟩ := compares.exit_hasData decided
      · exact .inl ⟨price, level, priced, hit⟩
      · exact .inr ⟨c, listed, backed⟩
  case named =>
    intro talk id name after ended
    obtain ⟨window, price, snapshot, fetched, decided⟩ := tick_exited_decided ended
    obtain ⟨_, other, _⟩ | ⟨c, listed, same, backed⟩ := compares.exit_hasData decided
    · cases other
    · cases same
      exact ⟨window, fetched, c, listed, rfl, backed⟩

def flatDays (days : Nat) : List Candle :=
  (List.range days).map fun day =>
    ⟨⟨day * 86400, 0, by decide⟩, ⟨day * 86400 + 86399, 0, by decide⟩, .one, .one, .one, .one, .one⟩

def strong : IndicatorComparison := .againstConstant .daily "RSI" .above 0.0

def strengthDraft : BotDraft where
  hasExchange := true
  direction := some .long
  pipeline := some .standard
  stop := some eager.stop
  trading := some eager.trading
  entry := [strong.toCondition]
  exit := [strong.toCondition]

/-- Fifteen days are just enough for the strength index. -/
theorem strong_after_fifteen_days :
    ∃ s, Pipeline.standard.snapshot (flatDays 15) [] = .ok s ∧ strong.holds s = true := by
  have read : (Pipeline.standard.snapshot (flatDays 15) []).toOption.map strong.holds =
      some true := by decide +kernel
  obtain ⟨s, found, holds⟩ := Option.map_eq_some_iff.mp read
  refine ⟨s, ?_, holds⟩
  cases taken : Pipeline.standard.snapshot (flatDays 15) [] with
  | error =>
    rw [taken] at found
    cases found
  | ok t =>
    rw [taken] at found
    cases found
    rfl

theorem strong_entry_rests_on_data :
    ∃ params b talk order window, strengthDraft.build = .ok params ∧
      Reaches (.ofParams params) b ∧ b.tick.Asks talk (.placeOrder order) ∧
      order.reduceOnly = false ∧ b.Fetches window talk ∧ strong.HasData .standard window := by
  let params : BotParams :=
    ⟨.standard, ⟨[strong.toCondition], [strong.toCondition], .long⟩, eager.stop, eager.trading⟩
  have built : strengthDraft.build = .ok params := by with_unfolding_all rfl
  let b : Bot := { ofParams params with running := true }
  have starts : (Call.start.program (ofParams params)).Yields
      [⟨.setLeverage "BTCUSDT" 1, .ok ()⟩] b :=
    yields_second.mpr ⟨.ok (), yields_withReply.mpr (.inl ⟨(), [], rfl, rfl, rfl⟩)⟩
  have reached : Reaches (.ofParams params) b := Reaches.new.call _ starts
  obtain ⟨s, read, holds⟩ := strong_after_fifteen_days
  have enters : b.rules.evaluate s b.stop .hundred = .ok (.enter .long) := by
    have all : b.rules.entry.all (·.holds s) = true := by
      simpa [b, params, ofParams, IndicatorComparison.toCondition] using holds
    simp only [Rules.evaluate, all]
    rfl
  let decided : Bot := { b with pending := some (.enter .long, .hundred) }
  have orders : decided.execute.Asks [⟨.balance, .ok .hundred⟩]
      (.placeOrder (b.entryOrder .long)) := by
    refine asks_withReply.mpr (.inr ⟨_, _, rfl, ?_⟩)
    refine asks_bind.mpr (.inr ⟨[], .hundred, [], rfl, ?_, ?_⟩)
    · exact yields_ofExcept.mpr ⟨rfl, eager_requiredMargin⟩
    · split
      case isTrue short => exact absurd short (by decide)
      case isFalse => exact asks_withReply.mpr (.inl ⟨rfl, rfl⟩)
  have asked : b.tick.Asks
      [⟨.candles "BTCUSDT" .daily 200, .ok (flatDays 15)⟩, ⟨.candles "BTCUSDT" .weekly 60, .ok []⟩,
        ⟨.price "BTCUSDT", .ok .hundred⟩, ⟨.balance, .ok .hundred⟩]
      (.placeOrder (b.entryOrder .long)) := by
    exact asks_of_tickAsks (.decided rfl read enters orders)
  have compared : [strong.toCondition] = [strong].map (·.toCondition) := rfl
  obtain ⟨entries, _⟩ := orders_rest_on_data built compared compared rfl (.inl rfl) reached
  obtain ⟨_, window, fetched, backed⟩ := entries _ _ asked rfl
  exact ⟨params, b, _, _, window, built, reached, asked, rfl, fetched, backed strong (by simp)⟩

end Bot

end FuturesDesk
