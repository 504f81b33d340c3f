import FuturesDesk.Proofs.Bot.Alternation

/-! The pending decision is never stale. Its owner may start, stop, decide and act in any order, and
whenever a decision is pending it suits the position that the bot follows then. So an action never
finds a position where it needs none, or none where it needs one. -/
namespace FuturesDesk.Bot
open Program

/-- The bots that calls which ended and stops lead to. -/
inductive Reaches (b₀ : Bot) : Bot → Prop where
  | new : Reaches b₀ b₀
  | call {b after : Bot} {talk : Talk} (reached : Reaches b₀ b) (c : Call)
      (ended : (c.program b).Yields talk after) : Reaches b₀ after
  | halted {b : Bot} (reached : Reaches b₀ b) : Reaches b₀ b.halt

/-- Since its last stop a bot agrees with the ledger of what happened to it. -/
theorem Reaches.follows {b₀ b : Bot} (fresh : b₀.pending = none) (reached : Reaches b₀ b) :
    ∃ since ledger, since.rules = b₀.rules ∧ Follows since ledger b := by
  induction reached with
  | new => exact ⟨b₀, {}, rfl, .new b₀ fresh⟩
  | call _ c ended ih =>
    obtain ⟨since, ledger, rules, follows⟩ := ih
    exact ⟨since, _, rules, call_follows follows c ended⟩
  | @halted b _ ih =>
    obtain ⟨since, ledger, rules, follows⟩ := ih
    exact ⟨b.halt, {}, follows.rules.trans rules, .new b.halt rfl⟩

/-- An outcome of an action that suited the position. The trailing stop refuses nothing but an
entry at a price that is not positive. -/
structure Suited (outcome : Except BotError TradeOutcome) : Prop where
  found : outcome ≠ .ok (.skipped .notOpen)
  tracked : ∀ e, outcome = .error (.tracker e) → ∃ price, e = .invalidPrice price ∧ price ≤ .zero

theorem Suited.gateway (e : GatewayError) : Suited (.error (.gateway e)) :=
  ⟨by simp, by simp⟩

theorem Suited.of_ok {outcome : TradeOutcome} (found : outcome ≠ .skipped .notOpen) :
    Suited (.ok outcome) := ⟨fun same => found (Except.ok.inj same), by simp⟩

theorem hold_suited (b : Bot) (price : Decimal) : Suited (b.hold price).1 := by
  simp only [hold]
  split
  case isTrue open_ =>
    cases observed : b.stop.observe price with
    | ok stop => exact .of_ok (by simp)
    | error e =>
      obtain ⟨p, position⟩ := Option.isSome_iff_exists.mp open_
      simp only [TrailingStop.observe, position] at observed
      split at observed <;> cases observed
  case isFalse => exact .of_ok (by simp)

theorem act_suited {since b after : Bot} {ledger : Ledger} {decision : Decision} {price : Decimal}
    {talk : Talk} {outcome : Except BotError TradeOutcome} (follows : Follows since ledger b)
    (pending : b.pending = some (decision, price))
    (acts : Acts { b with pending := none } price decision talk outcome after) :
    Suited outcome := by
  cases acts with
  | held => exact hold_suited _ price
  | @nothingToExit reason flat =>
    refine absurd ?_ (follows.exits reason price pending)
    simpa [TrailingStop.direction?_eq_held] using flat
  | exitRefused => exact .gateway _
  | exited => exact .of_ok (by simp)
  | balanceUnknown => exact .gateway _
  | uncovered => exact .of_ok (by simp)
  | entryRefused => exact .gateway _
  | @entryLost direction _ _ ack _ _ _ lost =>
    obtain ⟨flat, _⟩ := follows.enters direction price pending
    obtain ⟨_, followed, _⟩ | ⟨refused, low⟩ :=
      TrailingStop.enter_flat flat direction (ack.averagePrice.getD price)
    · rw [followed] at lost
      cases lost
    · rw [refused] at lost
      cases lost
      refine ⟨by simp, ?_⟩
      rintro _ ⟨⟩
      refine ⟨_, rfl, ?_⟩
      rw [Decimal.le_zero_iff]
      exact Int.not_lt.mp (mt Decimal.zero_lt_iff.mpr low)
  | entered => exact .of_ok (by simp)

theorem execute_suited {since b after : Bot} {ledger : Ledger} {talk : Talk}
    {outcome : Except BotError TradeOutcome} (follows : Follows since ledger b)
    (ended : b.execute.Yields talk (outcome, after)) : Suited outcome := by
  cases execute_yields ended with
  | undecided => exact .of_ok (by simp)
  | acted pending acts => exact act_suited follows pending acts

theorem tick_suited {since b after : Bot} {ledger : Ledger} {talk : Talk}
    {outcome : Except BotError TradeOutcome} (follows : Follows since ledger b)
    (ended : b.tick.Yields talk (outcome, after)) : Suited outcome := by
  cases tick_yields ended with
  | stopped => exact .of_ok (by simp)
  | dailyUnknown => exact .gateway _
  | weeklyUnknown => exact .gateway _
  | priceUnknown => exact .gateway _
  | decided _ _ evaluated executed => exact execute_suited (follows.decide evaluated) executed

/-- A bot's pending decision suits the position that it follows, whatever calls and stops came
before: an entry is in the direction of the rules and finds it flat, and an exit finds it open. No
call asks the trailing stop for what it refuses to an open or to a flat one. -/
theorem pending_suits_position {params : BotParams} {b : Bot}
    (reached : Reaches (.ofParams params) b) :
    (∀ direction price, b.pending = some (.enter direction, price) →
      b.stop.isOpen = false ∧ direction = params.rules.direction) ∧
    (∀ reason price, b.pending = some (.exit reason, price) → b.stop.isOpen = true) ∧
    (∀ talk outcome after, b.execute.Yields talk (outcome, after) → Suited outcome) ∧
    (∀ talk outcome after, b.tick.Yields talk (outcome, after) → Suited outcome) ∧
    ∀ talk outcome after, b.start.Yields talk (outcome, after) →
      ∀ e, outcome ≠ .error (.tracker e) := by
  obtain ⟨since, ledger, rules, follows⟩ := reached.follows rfl
  refine ⟨?enters, ?exits, ?_, ?_, ?start⟩
  case enters =>
    intro direction price pending
    obtain ⟨flat, same, _⟩ := follows.enters direction price pending
    exact ⟨by simp [TrailingStop.isOpen_eq_held, flat], by rw [same, rules]; rfl⟩
  case exits =>
    intro reason price pending
    rw [TrailingStop.isOpen_eq_held, Option.isSome_iff_ne_none]
    exact follows.exits reason price pending
  · exact fun _ _ _ => execute_suited follows
  · exact fun _ _ _ => tick_suited follows
  case start =>
    intro talk outcome after started
    cases start_yields started <;> simp

/-- A bot that was stopped and decides to enter is flat when it does. -/
theorem eager_pending_suits :
    ∃ b, Reaches (.ofParams eager) b ∧ b.pending = some (.enter .long, .hundred) ∧
      b.stop.isOpen = false ∧
      ∀ talk outcome after, b.execute.Yields talk (outcome, after) → Suited outcome := by
  let quiet : Snapshot := ⟨⟨.daily, []⟩, ⟨.weekly, []⟩⟩
  let stopped : Bot := (ofParams eager).halt
  have decides : ((Call.process quiet .hundred).program stopped).Yields []
      { stopped with pending := some (.enter .long, .hundred) } :=
    Call.process_yields rfl
  have reached : Reaches (ofParams eager)
      { stopped with pending := some (.enter .long, .hundred) } :=
    Reaches.new.halted.call _ decides
  obtain ⟨enters, _, executes, _⟩ := pending_suits_position reached
  exact ⟨_, reached, rfl, (enters .long .hundred rfl).1, executes⟩

end FuturesDesk.Bot
