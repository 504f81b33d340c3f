import FuturesDesk.Proofs.Bot.Cycles
import FuturesDesk.Proofs.Bot.Halting
import FuturesDesk.Proofs.Bot.Overflow
import Mathlib.Data.List.Induction

/-! A session as its exchange hears it. It proceeds in rounds, one for each tick up to the request to
stop. Every round asks to set the leverage until that succeeds, and from then on it is a tick. A
round that fails is the last one only if the credentials were refused. Nothing but a decimal
computation without a result keeps a round from its end. -/
namespace FuturesDesk

/-- The rounds of a session, and whether the leverage has been set in one of them. -/
inductive TradingConfig.Rounds (t : TradingConfig) : Bool → List Bot.Talk → Prop where
  | starting {refusals : List Bot.Talk}
      (refused : ∀ talk ∈ refusals, ∃ e, talk = [⟨t.startCall, .error e⟩]) : t.Rounds false refusals
  | started {refusals : List Bot.Talk} {first : Bot.Talk} {later : List Bot.Talk}
      (refused : ∀ talk ∈ refusals, ∃ e, talk = [⟨t.startCall, .error e⟩])
      (began : ∃ failure, t.Ticked first failure)
      (ticked : ∀ talk ∈ later, ∃ failure, t.Ticked talk failure) :
      t.Rounds true (refusals ++ (⟨t.startCall, .ok ()⟩ :: first) :: later)

namespace Bot
open Program
variable {b : Bot}

inductive Stands : List SessionEvent → List Talk → SessionState → Prop where
  | waiting {rounds b} (calm : Calm rounds.flatten) :
      Stands (.replicate rounds.length .tick) rounds (.waiting b)
  /-- It was asked to stop after the rounds, and takes no notice of anything later. -/
  | stopped {rounds rest b} (calm : Calm rounds.flatten) (flat : b.stop.isOpen = false)
      (decided : b.pending = none) (idle : b.running = false) :
      Stands (.replicate rounds.length .tick ++ .shutdown :: rest) rounds (.ended none b)
  /-- The last call of the rounds was answered by a refusal of the credentials. -/
  | halted {rounds before c d rest b} (calm : Calm before)
      (last : rounds.flatten = before ++ [⟨c, .error (.unauthorized d)⟩]) :
      Stands (.replicate rounds.length .tick ++ rest) rounds
        (.ended (some (.gateway (.unauthorized d))) b)

theorem session_concat (b : Bot) (events : List SessionEvent) (e : SessionEvent) :
    b.session (events ++ [e]) = b.session events >>= fun state => state.next e := by
  simp only [session, List.foldlM_append, List.foldlM_cons, List.foldlM_nil, pure_eq, bind_done]

theorem rounds_concat {after : Bot} {rounds : List Talk} {talk : Talk}
    {failure : Option GatewayError} (past : b.trading.Rounds b.running rounds)
    (cycles : Cycles b talk failure after) :
    b.trading.Rounds after.running (rounds ++ [talk]) ∧ after.trading = b.trading := by
  generalize running : b.running = phase at past
  cases past with
  | starting refused =>
    cases cycles with
    | @refused e =>
      refine ⟨?_, rfl⟩
      rw [running]
      refine .starting ?_
      intro talk member
      rcases List.mem_append.mp member with old | new
      · exact refused talk old
      · exact ⟨e, List.mem_singleton.mp new⟩
    | started _ ticked trading still =>
      rw [still]
      exact ⟨.started refused ⟨failure, ticked⟩ (by simp), trading⟩
    | ticked already =>
      rw [running] at already
      cases already
  | started refused began ticked =>
    cases cycles with
    | refused idle =>
      rw [running] at idle
      cases idle
    | started idle =>
      rw [running] at idle
      cases idle
    | ticked _ said trading still =>
      rw [still, List.append_assoc, List.cons_append]
      refine ⟨.started refused began ?_, trading⟩
      intro talk member
      rcases List.mem_append.mp member with old | new
      · exact ticked talk old
      · exact ⟨failure, by rwa [List.mem_singleton.mp new]⟩

theorem replicate_concat_tick (rounds : List Talk) (talk : Talk) :
    List.replicate rounds.length SessionEvent.tick ++ [.tick] =
      .replicate (rounds ++ [talk]).length .tick := by
  rw [List.length_append, List.length_singleton, List.replicate_succ']

/-- A cycle of a session that waits is one more round of it. -/
theorem tick_stands {rounds : List Talk} {talk : Talk} {state : SessionState}
    (past : b.trading.Rounds b.running rounds) (calm : Calm rounds.flatten)
    (ended : ((SessionState.waiting b).next .tick).Yields talk state) :
    (∃ started, b.trading.Rounds started (rounds ++ [talk]) ∧
      Stands (.replicate (rounds ++ [talk]).length .tick) (rounds ++ [talk]) state ∧
      ∀ after, state = .waiting after → after.trading = b.trading ∧ after.running = started) := by
  simp only [SessionState.next, yields_bind] at ended
  obtain ⟨said, ⟨result, after⟩, rest, rfl, cycle, ended⟩ := ended
  obtain ⟨failure, cycled, cycles, verdict⟩ := cycle_yields cycle
  obtain ⟨round, trading⟩ := rounds_concat past cycles
  obtain ⟨calls, turn⟩ := cycles.inTurn
  obtain ⟨d, rfl, rfl⟩ | ⟨harmless, rfl, rfl⟩ := verdict
  · obtain ⟨rfl, rfl⟩ := ended
    rw [List.append_nil]
    obtain ⟨before, c, rfl, quiet⟩ := turn.last
    refine ⟨_, round, ?_, by rintro _ ⟨⟩⟩
    have calmly : Calm (rounds.flatten ++ before) := List.forall_mem_append.mpr ⟨calm, quiet⟩
    rw [← List.append_nil (List.replicate _ _)]
    refine .halted (c := c) calmly ?_
    rw [List.flatten_append, List.flatten_singleton, List.append_assoc]
  · obtain ⟨rfl, rfl⟩ := ended
    rw [List.append_nil]
    refine ⟨_, round, .waiting ?_, ?_⟩
    · rw [List.flatten_append, List.flatten_singleton]
      exact List.forall_mem_append.mpr ⟨calm, turn.calm harmless⟩
    · rintro _ ⟨⟩
      exact ⟨trading, rfl⟩

/-- A session proceeds in rounds, as long as it lasts. -/
theorem session_stands {b₀ : Bot} (idle : b₀.running = false) (events : List SessionEvent) :
    ∀ talk state, (b₀.session events).Yields talk state → ∃ rounds started,
      talk = rounds.flatten ∧ b₀.trading.Rounds started rounds ∧ Stands events rounds state ∧
        ∀ b, state = .waiting b → b.trading = b₀.trading ∧ b.running = started := by
  induction events using List.reverseRecOn with
  | nil =>
    rintro _ _ ⟨rfl, rfl⟩
    have quiet : Calm (List.flatten []) := by simp [Calm]
    refine ⟨[], false, rfl, .starting (by simp), .waiting quiet, ?_⟩
    rintro _ ⟨⟩
    exact ⟨rfl, idle⟩
  | append_singleton events e ih =>
    intro talk state ended
    rw [session_concat, yields_bind] at ended
    obtain ⟨first, middle, rest, rfl, earlier, ended⟩ := ended
    obtain ⟨rounds, started, rfl, past, stands, waits⟩ := ih first middle earlier
    cases stands with
    | @waiting _ b calm =>
      obtain ⟨trading, rfl⟩ := waits b rfl
      cases e with
      | shutdown =>
        obtain ⟨rfl, rfl⟩ := ended
        refine ⟨rounds, _, List.append_nil _, past, .stopped calm rfl rfl rfl, ?_⟩
        rintro _ ⟨⟩
      | tick =>
        rw [← trading] at past ⊢
        obtain ⟨started, round, stands, waits⟩ := tick_stands past calm ended
        rw [replicate_concat_tick rounds rest]
        exact ⟨rounds ++ [rest], started, by simp, round, stands, waits⟩
    | stopped calm flat decided idle =>
      obtain ⟨rfl, rfl⟩ := ended
      rw [List.append_assoc, List.cons_append]
      refine ⟨rounds, started, List.append_nil _, past, .stopped calm flat decided idle, ?_⟩
      rintro _ ⟨⟩
    | halted calm last =>
      obtain ⟨rfl, rfl⟩ := ended
      rw [List.append_assoc]
      refine ⟨rounds, started, List.append_nil _, past, .halted calm last, ?_⟩
      rintro _ ⟨⟩

/-- A request to stop ends a session that waits, without a further call. -/
theorem shutdown_yields {b₀ b : Bot} {events : List SessionEvent} {talk : Talk}
    (waits : (b₀.session events).Yields talk (.waiting b)) (rest : List SessionEvent) :
    (b₀.session (events ++ .shutdown :: rest)).Yields talk (.ended none b.halt) := by
  rw [session, List.foldlM_append, yields_bind]
  refine ⟨talk, _, [], (List.append_nil _).symm, waits, ?_⟩
  rw [List.foldlM_cons]
  change (rest.foldlM SessionState.next (.ended none b.halt)).Yields _ _
  rw [ended_foldlM]
  exact ⟨rfl, rfl⟩

theorem session_faults (b : Bot) (events : List SessionEvent) : ∀ talk cause,
    (b.session events).Faults talk cause → b.Overflows events talk cause := by
  induction events using List.reverseRecOn with
  | nil => exact fun _ _ never => never.elim
  | append_singleton events e ih =>
    intro talk cause faulted
    rw [session_concat, faults_bind] at faulted
    obtain earlier | ⟨said, state, later, rfl, waits, ticking⟩ := faulted
    · cases ih talk cause earlier with
      | tick waits starts overflows =>
        rw [List.append_assoc, List.cons_append]
        exact .tick waits starts overflows
    · obtain ⟨after, rfl, rfl, cycling⟩ := next_faults ticking
      obtain ⟨first, ready, rest, rfl, starts, overflows⟩ := cycle_faults cycling
      exact .tick waits starts overflows

theorem atTick_of_stop {signal : StopSignal} (stop : signal.stop = true) :
    signal.atTick = .shutdown := by
  rw [StopSignal.atTick, if_pos stop]

theorem eq_shutdown_of_whileWaiting? {signal : StopSignal} {e : SessionEvent}
    (seen : signal.whileWaiting? = some e) : e = .shutdown := by
  rw [StopSignal.whileWaiting?] at seen
  split at seen
  · exact (Option.some.inj seen).symm
  · cases seen

/-- A session of a new bot proceeds in rounds, one for each tick that it sees before a request to
stop. It ends with an error exactly if a call is answered by a refusal of the credentials, and then
that call is its last. Once the signal to stop is up where the bot looks at it, there is no further
call. Whatever was said so far, it goes on or ends, unless a decimal computation has no result. -/
theorem session_proceeds_in_rounds (params : BotParams) (events : List SessionEvent) :
    (∀ talk state, ((ofParams params).session events).Yields talk state → ∃ rounds started,
      talk = rounds.flatten ∧ params.trading.Rounds started rounds ∧ Stands events rounds state) ∧
    (∀ before c d,
      ((ofParams params).session events).Holds (before ++ [⟨c, .error (.unauthorized d)⟩]) →
      ∃ b, ((ofParams params).session events).Yields (before ++ [⟨c, .error (.unauthorized d)⟩])
        (.ended (some (.gateway (.unauthorized d))) b)) ∧
    (∀ talk b, ((ofParams params).session events).Yields talk (.waiting b) →
      ∀ (signal : StopSignal) e,
        (signal.stop = true ∧ e = signal.atTick) ∨ signal.whileWaiting? = some e →
        ∀ rest, ((ofParams params).session (events ++ e :: rest)).Yields talk
          (.ended none b.halt)) ∧
    ∀ talk, ((ofParams params).session events).Holds talk →
      (∃ state, ((ofParams params).session events).Yields talk state) ∨
        (∃ c, ((ofParams params).session events).Asks talk c) ∨
        ∃ cause, (ofParams params).Overflows events talk cause := by
  refine ⟨?rounds, ?halts, ?stops, ?goesOn⟩
  case rounds =>
    intro talk state ended
    obtain ⟨rounds, started, same, past, stands, _⟩ := session_stands rfl events talk state ended
    exact ⟨rounds, started, same, past, stands⟩
  case halts =>
    intro before c d held
    obtain ⟨_, ended, b, rfl⟩ := session_haltsOn _ events before c d held
    exact ⟨b, ended⟩
  case stops =>
    intro talk b waits signal e seen
    have shutdown : e = .shutdown := by
      rcases seen with ⟨stop, rfl⟩ | seen
      · exact atTick_of_stop stop
      · exact eq_shutdown_of_whileWaiting? seen
    rw [shutdown]
    exact shutdown_yields waits
  case goesOn =>
    intro talk held
    obtain ended | asked | ⟨cause, faulted⟩ := holds_cases held
    · exact .inl ended
    · exact .inr (.inl asked)
    · exact .inr (.inr ⟨cause, session_faults _ events talk cause faulted⟩)

/-- A start that fails once, and credentials that are refused at the first tick. -/
theorem eager_session_halts :
    ∃ b, let talk : Talk := [⟨eager.trading.startCall, .error (.transient "503")⟩,
        ⟨eager.trading.startCall, .ok ()⟩,
        ⟨.candles "BTCUSDT" .daily 200, .error (.unauthorized "key")⟩]
      ((ofParams eager).session [.tick, .tick, .tick]).Yields talk
        (.ended (some (.gateway (.unauthorized "key"))) b) ∧
      ∃ rounds started, talk = rounds.flatten ∧ eager.trading.Rounds started rounds := by
  obtain ⟨all, halts, _, _⟩ := session_proceeds_in_rounds eager [.tick, .tick, .tick]
  obtain ⟨b, ended⟩ := halts [⟨eager.trading.startCall, .error (.transient "503")⟩,
    ⟨eager.trading.startCall, .ok ()⟩] (.candles "BTCUSDT" .daily 200) "key"
    (.inr ⟨_, _, rfl, .inr ⟨_, _, rfl, .inr ⟨_, _, rfl, rfl⟩⟩⟩)
  obtain ⟨rounds, started, same, past, _⟩ := all _ _ ended
  exact ⟨b, ended, rounds, started, same, past⟩

end Bot

end FuturesDesk
