import FuturesDesk.Launch
import FuturesDesk.Proofs.Bot.Cycles
import Mathlib.Data.List.Forall2

/-! What a desk that does not come up has started all the same. Each bot is started as soon as its
own configuration is taken, before the next one is looked at, so the bots in front of an invalid one
are on their own by the time it ends the launch. -/
namespace FuturesDesk
open Program

namespace Bot

def MadeOf (c : BotConfig) (b : Bot) : Prop :=
  ∃ params, c.toParams = .ok params ∧ b = .ofParams params

variable {c : BotConfig} {b : Bot} {configs : List BotConfig} {bots : List Bot}

/-- A bot that was started calls the exchange at its first tick, before anything else. -/
theorem MadeOf.session_asks (made : MadeOf c b) (later : List SessionEvent) :
    (b.session (.tick :: later)).Asks [] b.trading.startCall := by
  obtain ⟨params, _, rfl⟩ := made
  exact .inl ⟨rfl, rfl⟩

theorem madeOf_of_mem (made : List.Forall₂ MadeOf configs bots) (member : b ∈ bots) :
    ∃ c ∈ configs, MadeOf c b := by
  induction made with
  | nil => cases member
  | @cons c _ _ _ first _ ih =>
    rcases List.mem_cons.mp member with rfl | member
    · exact ⟨c, List.mem_cons_self, first⟩
    · obtain ⟨c, listed, made⟩ := ih member
      exact ⟨c, List.mem_cons_of_mem _ listed, made⟩

theorem params_of_mem (made : List.Forall₂ MadeOf configs bots) (member : c ∈ configs) :
    ∃ params, c.toParams = .ok params := by
  induction made with
  | nil => cases member
  | cons first _ ih =>
    rcases List.mem_cons.mp member with rfl | member
    · obtain ⟨params, taken, _⟩ := first
      exact ⟨params, taken⟩
    · exact ih member

end Bot

namespace Launch

/-- How starting bots in turn ends, with the bots that were started. -/
inductive Starts : List BotConfig → List Bot → Option LaunchError → Prop where
  | all {configs : List BotConfig} {bots : List Bot}
      (made : List.Forall₂ Bot.MadeOf configs bots) : Starts configs bots none
  /-- An invalid bot is the end of it. Those behind it are not looked at. -/
  | upTo {before after : List BotConfig} {bots : List Bot} {invalid : BotConfig}
      {cause : ConfigurationError} (made : List.Forall₂ Bot.MadeOf before bots)
      (refused : invalid.toParams = .error cause) :
      Starts (before ++ invalid :: after) bots (some (.bot invalid.symbol cause))

namespace Starts
variable {configs : List BotConfig} {bots : List Bot} {failure : Option LaunchError}

theorem cons {c : BotConfig} {b : Bot} (made : Bot.MadeOf c b)
    (rest : Starts configs bots failure) : Starts (c :: configs) (b :: bots) failure := by
  cases rest with
  | all later => exact .all (.cons made later)
  | upTo later refused => exact .upTo (.cons made later) refused

theorem madeOf (starts : Starts configs bots failure) :
    ∀ b ∈ bots, ∃ c ∈ configs, Bot.MadeOf c b := by
  intro b member
  cases starts with
  | all made => exact Bot.madeOf_of_mem made member
  | upTo made =>
    obtain ⟨c, listed, made⟩ := Bot.madeOf_of_mem made member
    exact ⟨c, List.mem_append_left _ listed, made⟩

theorem failure_eq_none_iff (starts : Starts configs bots failure) :
    failure = none ↔ ∀ c ∈ configs, ∃ params, c.toParams = .ok params := by
  cases starts with
  | all made =>
    constructor
    · intro _ c member
      exact Bot.params_of_mem made member
    · intro _
      rfl
  | @upTo _ _ _ invalid _ made refused =>
    constructor
    · rintro ⟨⟩
    · intro valid
      obtain ⟨params, taken⟩ := valid invalid (by simp)
      rw [refused] at taken
      cases taken

/-- A launch that fails has started nothing exactly if its first bot is the invalid one. -/
theorem bots_eq_nil_iff (starts : Starts configs bots failure) (failed : failure ≠ none) :
    bots = [] ↔ ∃ first later cause, configs = first :: later ∧ first.toParams = .error cause := by
  cases starts with
  | all => exact absurd rfl failed
  | @upTo before after _ invalid cause made refused =>
    constructor
    · rintro rfl
      obtain rfl := List.forall₂_nil_right_iff.mp made
      exact ⟨invalid, after, cause, rfl, refused⟩
    · rintro ⟨first, later, found, same, refusedFirst⟩
      cases made with
      | nil => rfl
      | cons taken =>
        obtain ⟨params, taken, _⟩ := taken
        cases same
        rw [taken] at refusedFirst
        cases refusedFirst

end Starts

theorem startBots_starts (configs : List BotConfig) :
    Starts configs (startBots configs).1 (startBots configs).2 := by
  induction configs with
  | nil => exact .all .nil
  | cons c rest ih =>
    cases taken : c.toParams with
    | ok params =>
      simp only [startBots, taken]
      exact .cons ⟨params, taken, rfl⟩ ih
    | error cause =>
      simp only [startBots, taken]
      exact @Starts.upTo [] rest [] c cause .nil taken

/-- With settings that give a guard, a launch fails exactly if some bot is invalid. The failure is
that of the first invalid bot, and all bots in front of it have been started: each will call the
exchange at its first tick. Only if the first bot of all is invalid has nothing been started. -/
theorem starts_bots_up_to_invalid {c : DeskConfig} {g : BucketGuard}
    (guarded : Guard.ofSettings c.gateway = .ok g) :
    let l := ofConfig c
    Starts c.bots l.bots l.failure ∧
      (l.failure = none ↔ ∀ bot ∈ c.bots, ∃ params, bot.toParams = .ok params) ∧
      (l.failure ≠ none → (l.bots = [] ↔
        ∃ first later cause, c.bots = first :: later ∧ first.toParams = .error cause)) ∧
      ∀ b ∈ l.bots, ∀ later, (b.session (.tick :: later)).Asks [] b.trading.startCall := by
  have starts := startBots_starts c.bots
  simp only [ofConfig, guarded]
  refine ⟨starts, starts.failure_eq_none_iff, starts.bots_eq_nil_iff, ?_⟩
  intro b member later
  obtain ⟨_, _, made⟩ := starts.madeOf b member
  exact made.session_asks later

def soundBot : BotConfig where
  symbol := "BTCUSDT"
  direction := .long
  leverage := 3
  quantity := .one
  trailingStopPercent := .ofWord 2
  tickIntervalSecs := none
  dailyLookback := none
  weeklyLookback := none
  indicators := BotConfig.defaultIndicators
  entryConditions := [.aboveIndicator .daily "MACD" "MACD_SIGNAL"]
  exitConditions := [.aboveIndicator .daily "MACD_SIGNAL" "MACD"]

/-- A desk whose second bot asks for more leverage than there is. -/
def halfSound : DeskConfig where
  exchange := { paper := true }
  bots := [soundBot, { soundBot with symbol := "ETHUSDT", leverage := 300 }]

theorem half_sound_fails :
    (ofConfig halfSound).failure = some (.bot "ETHUSDT" ⟨[.leverageOutOfRange 300]⟩) := by
  with_unfolding_all rfl

theorem half_sound_starts_first :
    ∃ g, Guard.ofSettings halfSound.gateway = .ok g ∧ (ofConfig halfSound).failure ≠ none ∧
      (ofConfig halfSound).bots ≠ [] ∧
      ∀ b ∈ (ofConfig halfSound).bots, (b.session [.tick]).Asks [] b.trading.startCall := by
  obtain ⟨g, guarded⟩ : ∃ g, Guard.ofSettings halfSound.gateway = .ok g := ⟨_, rfl⟩
  obtain ⟨_, _, nothing_iff, calls⟩ := starts_bots_up_to_invalid guarded
  have failed : (ofConfig halfSound).failure ≠ none := by simp [half_sound_fails]
  refine ⟨g, guarded, failed, ?_, fun b member => calls b member []⟩
  rw [Ne, nothing_iff failed]
  rintro ⟨first, later, cause, same, refused⟩
  obtain rfl : soundBot = first := List.head_eq_of_cons_eq same
  have taken : soundBot.toParams.isOk = true := by with_unfolding_all rfl
  rw [refused] at taken
  cases taken

/-- The second bot of the desk is invalid, and the first one is started and sets its leverage. -/
theorem half_sound_calls_exchange :
    (∃ g, Guard.ofSettings halfSound.gateway = .ok g) ∧
      (∃ bot ∈ halfSound.bots, ∃ cause, bot.toParams = .error cause) ∧
      (ofConfig halfSound).failure = some (.bot "ETHUSDT" ⟨[.leverageOutOfRange 300]⟩) ∧
      ∃ b, (ofConfig halfSound).bots = [b] ∧
        (b.session [.tick]).Asks [] (.setLeverage "BTCUSDT" 3) := by
  refine ⟨⟨_, rfl⟩, ?invalid, half_sound_fails, ?started⟩
  case invalid =>
    refine ⟨_, List.mem_cons_of_mem _ List.mem_cons_self, ⟨[.leverageOutOfRange 300]⟩, ?_⟩
    with_unfolding_all rfl
  case started => exact ⟨_, rfl, .inl ⟨rfl, rfl⟩⟩

end Launch

end FuturesDesk
