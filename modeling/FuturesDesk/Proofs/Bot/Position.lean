import FuturesDesk.Proofs.Bot.Alternation
import FuturesDesk.Proofs.Exchange.Trader
import FuturesDesk.Proofs.Exchange.Traffic

/-! The position that a bot follows and the one on its paper account. They are kept apart and change
at different times; whatever fails in between, they are the same again whenever the bot is idle. -/
namespace FuturesDesk.Bot
open Program PaperAccount

/-- The signed quantity of the position that is followed, zero while flat. -/
def exposure (b : Bot) : Decimal :=
  match b.stop.direction? with
  | some .long => b.trading.quantity
  | some .short => -b.trading.quantity
  | none => .zero

/-- A bot on the layers of a desk, idle after some operations. Others use the account while the bot
is idle and between any two steps of an operation. -/
inductive Trades (l : Layers) (owns : String → Prop) (b₀ : Bot) (a₀ : PaperAccount) :
    Bot → PaperAccount → Prop where
  | new : Trades l owns b₀ a₀ b₀ a₀
  | others {b : Bot} {a t : PaperAccount} (run : Trades l owns b₀ a₀ b a)
      (moved : Trader.Others ⟨b₀.symbol, owns⟩ a t) : Trades l owns b₀ a₀ b t
  | call {b after : Bot} {a t : PaperAccount}
      {talk : List (Program.Exchange Layers.Step.Reply)} (run : Trades l owns b₀ a₀ b a) (c : Call)
      (ended : (l.carryOut (c.program b)).Yields talk after)
      (path : Path (Trader.Serves ⟨b₀.symbol, owns⟩) a talk t) : Trades l owns b₀ a₀ after t

/-- The account holds what the stop follows: the fill of the entry, and nothing while it is flat. -/
structure Backs (b₀ : Bot) (stop : TrailingStop) (a : PaperAccount) : Prop where
  stored : (Keyed.find? b₀.symbol a.positions).map (·.quantity) =
    stop.direction?.map fun direction => signedQuantity (b₀.entryOrder direction)
  sized : stop.direction?.isSome → 0 < b₀.trading.quantity.value

namespace Backs

variable {b₀ : Bot} {owns : String → Prop} {stop followed : TrailingStop} {a t : PaperAccount}
  {direction : Direction} {ack : OrderAck}

theorem keep (backs : Backs b₀ stop a) (same : Trader.Unaffected ⟨b₀.symbol, owns⟩ a t) :
    Backs b₀ stop t where
  stored := by
    rw [same.position]
    exact backs.stored
  sized := backs.sized

theorem observe (backs : Backs b₀ stop a) (same : followed.held = stop.held) :
    Backs b₀ followed a := by
  have direction? : followed.direction? = stop.direction? := by
    rw [TrailingStop.direction?_eq_held, TrailingStop.direction?_eq_held, same]
  exact ⟨direction? ▸ backs.stored, direction? ▸ backs.sized⟩

theorem enter (backs : Backs b₀ stop a) (flat : stop.direction? = none)
    (fills : Trader.Fills ⟨b₀.symbol, owns⟩ a (b₀.entryOrder direction) ack t)
    (following : followed.direction? = some direction) : Backs b₀ followed t := by
  obtain @⟨found, price, _, _, same, sized, positive, priced, admitted, filled⟩ := fills
  have empty : Keyed.find? b₀.symbol a.positions = none := by
    simpa [flat] using backs.stored
  have nothing : found.position b₀.symbol = .zero := by
    rw [same, position, empty]
    rfl
  have opening : found.opens (b₀.entryOrder direction) = true := by
    simp [opens, entryOrder, nothing, Decimal.isZero_iff]
  refine ⟨?_, fun _ => sized⟩
  cases admits_of_admitted admitted with
  | reduces _ closing =>
    rw [opening] at closing
    cases closing
  | closes _ closing =>
    rw [opening] at closing
    cases closing
  | opens =>
    simp only [empty, PaperPosition.fill, Except.ok.injEq, Prod.mk.injEq] at filled
    rw [← filled.1, following]
    rfl

theorem exit (backs : Backs b₀ stop a) (following : stop.direction? = some direction)
    (fills : Trader.Fills ⟨b₀.symbol, owns⟩ a (b₀.exitOrder direction) ack t) :
    Backs b₀ stop.reset t := by
  obtain @⟨found, price, _, _, same, sized, positive, priced, admitted, filled⟩ := fills
  obtain ⟨p, held, size⟩ : ∃ p, Keyed.find? b₀.symbol a.positions = some p ∧
      p.quantity = signedQuantity (b₀.entryOrder direction) := by
    simpa [following] using backs.stored
  have opposite : (signedQuantity (b₀.exitOrder direction)).value = -p.quantity.value := by
    rw [size]
    cases direction <;> simp [signedQuantity, entryOrder, exitOrder, Direction.exitSide,
      Direction.entrySide, OrderSide.opposite]
  have nonzero : p.quantity.value ≠ 0 := by
    rw [← abs_pos, size, abs_signedQuantity, abs_pos]
    exact (backs.sized (by simp [following])).ne'
  have current : found.position b₀.symbol = p.quantity := by
    rw [same, position, held]
    rfl
  have closed : Keyed.find? b₀.symbol t.positions = none := by
    cases admits_of_admitted admitted with
    | opens free => cases free
    | closes free => cases free
    | reduces =>
      rw [held] at filled
      refine PaperPosition.fill_closes nonzero ?_ filled
      -- The exit is for the whole position, and cutting it to the position comes to the same.
      split
      · simp [exitOrder, current]
      · exact opposite
  exact ⟨by rw [closed]; rfl, by rintro ⟨⟩⟩

theorem position_eq (backs : Backs b₀ stop a) :
    a.position b₀.symbol = exposure { b₀ with stop } := by
  rw [position, backs.stored, exposure]
  cases stop.direction? with
  | none => rfl
  | some direction => cases direction <;> rfl

end Backs

variable {l : Layers} {owns : String → Prop} {b₀ b after : Bot} {ledger : Ledger}
  {a t : PaperAccount} {talk : Talk}

theorem Backs.quiet {stop : TrailingStop} {c : ExchangeCall} {reply : c.Reply}
    (backs : Backs b₀ stop a) (other : ∀ order, c ≠ .placeOrder order)
    (heard : Through (Trader.Serves ⟨b₀.symbol, owns⟩) l.call a ⟨c, reply⟩ t) : Backs b₀ stop t :=
  backs.keep (Trader.call_unaffected other heard)

theorem act_backs {decision : Decision} {price : Decimal} {outcome : Except BotError TradeOutcome}
    (paper : l.paper = true) (f : Follows b₀ ledger b) (backs : Backs b₀ b.stop a)
    (pending : b.pending = some (decision, price))
    (acts : Acts { b with pending := none } price decision talk outcome after)
    (path : Path (Through (Trader.Serves ⟨b₀.symbol, owns⟩) l.call) a talk t) :
    Backs b₀ after.stop t := by
  have entry (direction : Direction) :
      ({ b with pending := none } : Bot).entryOrder direction = b₀.entryOrder direction :=
    entryOrder_congr f.trading direction
  have exit (direction : Direction) :
      ({ b with pending := none } : Bot).exitOrder direction = b₀.exitOrder direction :=
    exitOrder_congr f.trading direction
  cases acts with
  | held =>
    cases path
    obtain ⟨stop, same, held⟩ := hold_held { b with pending := none } price
    rw [same]
    exact backs.observe held
  | nothingToExit =>
    cases path
    exact backs
  | exitRefused =>
    rw [exit] at path
    have outcome := Trader.order_outcome paper rfl rfl path.single
    exact backs.keep outcome
  | exited following =>
    rw [exit] at path
    have outcome := Trader.order_outcome paper rfl rfl path.single
    exact backs.exit following outcome
  | balanceUnknown => exact backs.quiet (by simp) path.single
  | uncovered => exact backs.quiet (by simp) path.single
  | entryRefused =>
    rw [entry] at path
    obtain _ | ⟨asked, path⟩ := path
    have outcome := Trader.order_outcome paper rfl rfl path.single
    exact (backs.quiet (by simp) asked).keep outcome
  | @entryLost direction _ _ ack _ _ _ lost =>
    rw [entry] at path
    obtain _ | ⟨_, path⟩ := path
    obtain ⟨_, _, positive, priced, _, _⟩ := Trader.order_outcome paper rfl rfl path.single
    obtain ⟨flat, _⟩ := f.enters direction price pending
    -- A flat stop refuses no positive price, and a fill has one.
    obtain ⟨_, followed, _⟩ | ⟨_, low⟩ :=
      TrailingStop.enter_flat flat direction (ack.averagePrice.getD price)
    · rw [followed] at lost
      cases lost
    · simp [priced, positive] at low
  | @entered direction _ _ ack stop _ _ _ followed =>
    rw [entry] at path
    obtain _ | ⟨asked, path⟩ := path
    have outcome := Trader.order_outcome paper rfl rfl path.single
    obtain ⟨flat, _⟩ := f.enters direction price pending
    have unfollowed : b.stop.direction? = none := by
      rw [TrailingStop.direction?_eq_held, flat]
      rfl
    obtain ⟨_, same, _, held⟩ | ⟨lost, _⟩ :=
      TrailingStop.enter_flat flat direction (ack.averagePrice.getD price)
    · rw [followed] at same
      cases same
      refine (backs.quiet (by simp) asked).enter unfollowed outcome ?_
      rw [TrailingStop.direction?_eq_held, held]
      rfl
    · rw [followed] at lost
      cases lost

theorem execute_backs {outcome : Except BotError TradeOutcome} (paper : l.paper = true)
    (f : Follows b₀ ledger b) (backs : Backs b₀ b.stop a)
    (ended : b.execute.Yields talk (outcome, after))
    (path : Path (Through (Trader.Serves ⟨b₀.symbol, owns⟩) l.call) a talk t) :
    Backs b₀ after.stop t := by
  cases execute_yields ended with
  | undecided =>
    cases path
    exact backs
  | acted pending acts => exact act_backs paper f backs pending acts path

theorem tick_backs {outcome : Except BotError TradeOutcome} (paper : l.paper = true)
    (f : Follows b₀ ledger b) (backs : Backs b₀ b.stop a)
    (ended : b.tick.Yields talk (outcome, after))
    (path : Path (Through (Trader.Serves ⟨b₀.symbol, owns⟩) l.call) a talk t) :
    Backs b₀ after.stop t := by
  cases tick_yields ended with
  | stopped =>
    cases path
    exact backs
  | dailyUnknown => exact backs.quiet (by simp) path.single
  | weeklyUnknown =>
    obtain _ | ⟨daily, path⟩ := path
    exact (backs.quiet (by simp) daily).quiet (by simp) path.single
  | priceUnknown =>
    obtain _ | ⟨daily, _ | ⟨weekly, path⟩⟩ := path
    exact ((backs.quiet (by simp) daily).quiet (by simp) weekly).quiet (by simp) path.single
  | decided _ _ evaluated executed =>
    obtain _ | ⟨daily, _ | ⟨weekly, _ | ⟨quoted, path⟩⟩⟩ := path
    have read := ((backs.quiet (by simp) daily).quiet (by simp) weekly).quiet (by simp) quoted
    exact execute_backs paper (f.decide evaluated) read executed path

theorem call_backs (paper : l.paper = true) (f : Follows b₀ ledger b) (backs : Backs b₀ b.stop a)
    (c : Call) (ended : (c.program b).Yields talk after)
    (path : Path (Through (Trader.Serves ⟨b₀.symbol, owns⟩) l.call) a talk t) :
    Backs b₀ after.stop t := by
  cases c with
  | start =>
    obtain ⟨outcome, started⟩ := yields_second.mp ended
    cases start_yields started with
    | already =>
      cases path
      exact backs
    | refused => exact backs.quiet (by simp) path.single
    | started =>
      have kept := backs.quiet (by simp) path.single
      exact kept
  | process snapshot price =>
    obtain ⟨decision, decided⟩ := yields_second.mp ended
    obtain ⟨rfl, processed⟩ := yields_ofExcept.mp decided
    obtain ⟨_, rfl⟩ := process_ok.mp processed
    cases path
    exact backs
  | execute =>
    obtain ⟨outcome, executed⟩ := yields_second.mp ended
    exact execute_backs paper f backs executed path
  | tick =>
    obtain ⟨outcome, ticked⟩ := yields_second.mp ended
    exact tick_backs paper f backs ticked path

theorem trades_backs {a₀ : PaperAccount} (paper : l.paper = true) (fresh : b₀.pending = none)
    (flat : b₀.stop.isOpen = false) (empty : Keyed.find? b₀.symbol a₀.positions = none)
    (run : Trades l owns b₀ a₀ b a) : (∃ ledger, Follows b₀ ledger b) ∧ Backs b₀ b.stop a := by
  induction run with
  | new =>
    have unfollowed : b₀.stop.direction? = none := by
      simpa [TrailingStop.isOpen, TrailingStop.direction?] using flat
    refine ⟨⟨{}, .new b₀ fresh⟩, ?_, ?_⟩
    · rw [unfollowed, empty]
      rfl
    · simp [unfollowed]
  | others _ moved ih => exact ⟨ih.1, ih.2.keep moved.unaffected⟩
  | call _ c ended path ih =>
    obtain ⟨⟨ledger, f⟩, backs⟩ := ih
    obtain ⟨outer, yields, path⟩ := path_expand.mp ⟨_, ended, path⟩
    exact ⟨⟨_, call_follows f c yields⟩, call_backs paper f backs c yields path⟩

/-- Whenever a bot that began flat on an empty symbol is idle, the account holds exactly the position
that it follows: its quantity while it is long, as much below zero while it is short, and nothing
while it is flat. -/
theorem position_followed {a₀ : PaperAccount} (paper : l.paper = true) (fresh : b₀.pending = none)
    (flat : b₀.stop.isOpen = false) (empty : Keyed.find? b₀.symbol a₀.positions = none)
    (run : Trades l owns b₀ a₀ b a) : a.position b.symbol = b.exposure := by
  obtain ⟨⟨ledger, f⟩, backs⟩ := trades_backs paper fresh flat empty run
  have same := backs.position_eq
  rw [exposure] at same ⊢
  rwa [symbol, f.trading]

section
open Paper.Traffic

def guardedPaper : Layers := ⟨true, some {}, false⟩

def eagerTrader : Trader := ⟨"BTCUSDT", (· = "a")⟩

theorem eager_balance :
    Through eagerTrader.Serves guardedPaper.call walletBefore ⟨.balance, .ok .hundred⟩
      walletBefore :=
  ⟨[⟨.guard (.acquire .account), some ⟨0⟩⟩, ⟨.guard (.takeToken .account), .ok ()⟩,
    ⟨.account .wallet, .hundred⟩, ⟨.guard (.report .account ⟨0⟩ none), ()⟩],
    ⟨_, _, rfl, _, _, rfl, _, _, rfl, _, _, rfl, rfl, rfl⟩,
    .cons ⟨.refl, trivial⟩ (.cons ⟨.refl, trivial⟩ (.cons ⟨_, .refl, rfl⟩
      (.cons ⟨.refl, trivial⟩ .nil)))⟩

/-- The price cannot be read at the first attempt, and the order is filled at the second one. -/
theorem eager_entry :
    Through eagerTrader.Serves guardedPaper.call walletBefore
      ⟨.placeOrder ((ofParams eager).entryOrder .long), .ok keyedAck⟩ walletAfter := by
  let lost : GatewayError := .transient "timeout"
  have quoted : Decimal.zero < .hundred := by decide
  have reviewed : walletBefore.review keyedOrder = none := by
    with_unfolding_all rfl
  have looked : (Paper.AccountStep.review keyedOrder).apply walletBefore = (none, _) :=
    congrArg (·, _) reviewed
  have settled : (Paper.AccountStep.settle keyedOrder .hundred).apply walletBefore = _ :=
    settle_keyedOrder
  exact ⟨[⟨.guard .freshId, "a"⟩,
    ⟨.guard (.acquire .order), some ⟨0⟩⟩, ⟨.guard (.takeToken .order), .ok ()⟩,
    ⟨.account (.review keyedOrder), none⟩, ⟨.market (.price "BTCUSDT"), .error lost⟩,
    ⟨.guard (.report .order ⟨0⟩ (some lost)), ()⟩, ⟨.guard (.pause 1), ()⟩,
    ⟨.guard (.acquire .order), some ⟨0⟩⟩, ⟨.guard (.takeToken .order), .ok ()⟩,
    ⟨.account (.review keyedOrder), none⟩, ⟨.market (.price "BTCUSDT"), .ok .hundred⟩,
    ⟨.account (.settle keyedOrder .hundred), .ok (.ok keyedAck)⟩,
    ⟨.guard (.report .order ⟨0⟩ none), ()⟩],
    ⟨_, _, rfl, _, _, rfl, _, _, rfl, _, _, rfl, _, _, rfl, _, _, rfl, _, _, rfl, _, _, rfl,
      _, _, rfl, _, _, rfl, _, _, rfl, _, _, rfl, _, _, rfl, rfl, rfl⟩,
    .cons ⟨.refl, rfl, rfl⟩ (.cons ⟨.refl, trivial⟩ (.cons ⟨.refl, trivial⟩
      (.cons ⟨_, .refl, looked⟩ (.cons ⟨.refl, trivial⟩ (.cons ⟨.refl, trivial⟩
      (.cons ⟨.refl, trivial⟩ (.cons ⟨.refl, trivial⟩ (.cons ⟨.refl, trivial⟩
      (.cons ⟨_, .refl, looked⟩ (.cons ⟨.refl, quoted⟩ (.cons ⟨_, .refl, settled⟩
      (.cons ⟨.refl, trivial⟩ .nil))))))))))))⟩

theorem eager_position_followed :
    ∃ b a, Trades guardedPaper (· = "a") (.ofParams eager) { wallet := .hundred } b a ∧
      b.stop.direction? = some .long ∧ a.position "BTCUSDT" = .one := by
  let flat : Bot := .ofParams eager
  let quiet : Snapshot := ⟨⟨.daily, []⟩, ⟨.weekly, []⟩⟩
  have decides : ((Call.process quiet .hundred).program flat).Yields []
      { flat with pending := some (.enter .long, .hundred) } :=
    Call.process_yields rfl
  have enters : (Call.execute.program { flat with pending := some (.enter .long, .hundred) }).Yields
      [⟨.balance, .ok .hundred⟩, ⟨.placeOrder (flat.entryOrder .long), .ok keyedAck⟩]
      { flat with stop := ⟨.one, some ⟨.long, .hundred, .hundred⟩⟩ } :=
    Call.execute_yields rfl (.entered (b := flat) eager_requiredMargin (by decide) rfl
      (congrArg (Except.map some) eager_stopOf))
  obtain ⟨_, decided, silent⟩ := path_expand.mpr ⟨_, decides, Path.nil (s := walletBefore)⟩
  obtain ⟨_, executed, served⟩ :=
    path_expand.mpr ⟨_, enters, .cons eager_balance (.cons eager_entry .nil)⟩
  have begun : Trades guardedPaper (· = "a") flat walletBefore flat walletBefore := .new
  have run := ((begun.call _ decided silent).call _ executed served).others
    (.setLeverage "ETHUSDT" 5)
  exact ⟨_, _, run, rfl, position_followed rfl rfl rfl rfl run⟩

end

end FuturesDesk.Bot
