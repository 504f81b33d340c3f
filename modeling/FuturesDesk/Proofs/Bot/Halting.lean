import FuturesDesk.Bot.Session
import FuturesDesk.Proofs.Bot.Calls

/-! A refusal of the credentials halts a bot. Whichever call of a session is answered by one is the
last call, and the session ends with that error. -/
namespace FuturesDesk.Bot
open Program

/-- A refusal of the credentials ends a program, with a result that shows it. -/
def HaltsOn {α : Type} (shows : String → α → Prop) (p : ExchangeProgram α) : Prop :=
  ∀ before c d, p.Holds (before ++ [⟨c, .error (.unauthorized d)⟩]) →
    ∃ a, p.Yields (before ++ [⟨c, .error (.unauthorized d)⟩]) a ∧ shows d a

def Refused {α : Type} (detail : String) (result : Result α) : Prop :=
  result.1 = .error (.gateway (.unauthorized detail))

namespace HaltsOn
variable {α β : Type} {shows : String → α → Prop} {shows' : String → β → Prop}

theorem silent {p : ExchangeProgram α} (asksNothing : ∀ talk, p.Holds talk → talk = []) :
    HaltsOn shows p := by
  intro before c d held
  have nothing := asksNothing _ held
  simp at nothing

theorem done (a : α) : HaltsOn shows (.done a) := silent fun _ held => held

theorem ofExcept {e : Except Decimal.Fault α} {f : α → ExchangeProgram β}
    (rest : ∀ a, HaltsOn shows' (f a)) : HaltsOn shows' (Program.ofExcept e >>= f) := by
  cases e with
  | ok a => exact rest a
  | error fault => exact silent fun _ held => held

theorem bind {p : ExchangeProgram α} {f : α → ExchangeProgram β} (first : HaltsOn shows p)
    (passes : ∀ d a, shows d a → ∃ b, (f a).Yields [] b ∧ shows' d b)
    (rest : ∀ a, HaltsOn shows' (f a)) : HaltsOn shows' (p >>= f) := by
  intro before c d held
  -- The refusal answers a call of the first program, perhaps its last one, or a later call.
  have halted : p.Holds (before ++ [⟨c, .error (.unauthorized d)⟩]) →
      ∃ b, (p >>= f).Yields (before ++ [⟨c, .error (.unauthorized d)⟩]) b ∧ shows' d b := by
    intro held
    obtain ⟨a, ended, shown⟩ := first before c d held
    obtain ⟨b, passed, shown⟩ := passes d a shown
    exact ⟨b, yields_bind.mpr ⟨_, a, [], (List.append_nil _).symm, ended, passed⟩, shown⟩
  obtain held | ⟨talk, a, later, same, ended, held⟩ := holds_bind.mp held
  · exact halted held
  · rcases List.eq_nil_or_concat later with rfl | ⟨early, x, rfl⟩
    · rw [List.append_nil] at same
      rw [← same] at ended
      exact halted ended.holds
    · rw [List.concat_eq_append, ← List.append_assoc] at same
      obtain ⟨rfl, last⟩ := List.append_inj' same rfl
      obtain rfl := (List.cons.inj last).1
      rw [List.concat_eq_append] at held
      obtain ⟨b, later, shown⟩ := rest a early c d held
      exact ⟨b, yields_bind.mpr ⟨talk, a, _, List.append_assoc _ _ _, ended, later⟩, shown⟩

theorem withReply {b : Bot} {c : ExchangeCall} {next : c.Value → ExchangeProgram (Result α)}
    (each : ∀ value, HaltsOn Refused (next value)) : HaltsOn Refused (b.withReply c next) := by
  let refuses (d : String) (reply : c.Reply) : Prop := reply = .error (.unauthorized d)
  have called : HaltsOn refuses (ExchangeProgram.call c) := by
    rintro before q d (nothing | ⟨answer, rest, same, ended⟩)
    · simp at nothing
    · obtain rfl : rest = [] := ended
      obtain ⟨rfl, last⟩ := List.append_inj' (show before ++ _ = [] ++ _ from same) rfl
      cases last
      exact ⟨_, ⟨_, [], rfl, rfl, rfl⟩, rfl⟩
  refine bind called ?_ ?_
  · rintro d _ rfl
    exact ⟨_, ⟨rfl, rfl⟩, rfl⟩
  · intro reply
    cases reply with
    | ok value => exact each value
    | error e => exact done _

end HaltsOn

theorem act_haltsOn (b : Bot) (price : Decimal) (decision : Decision) :
    HaltsOn Refused (b.act price decision) := by
  cases decision with
  | hold => exact .done _
  | exit reason =>
    simp only [act, exit]
    split
    · exact .done _
    · exact .withReply fun _ => .done _
  | enter direction =>
    simp only [act, enter]
    refine .withReply fun balance => .ofExcept fun required => ?_
    split
    · exact .done _
    · refine .withReply fun ack => ?_
      simp only [follow]
      split
      · exact .done _
      · exact .ofExcept fun _ => .done _

theorem execute_haltsOn (b : Bot) : HaltsOn Refused b.execute := by
  simp only [execute]
  split
  · exact .done _
  · exact act_haltsOn _ _ _

theorem tick_haltsOn (b : Bot) : HaltsOn Refused b.tick := by
  simp only [tick]
  split
  · refine .withReply fun daily => .withReply fun weekly => .withReply fun price => ?_
    exact .ofExcept fun snapshot => .ofExcept fun decided => execute_haltsOn decided.2
  · exact .done _

theorem start_haltsOn (b : Bot) : HaltsOn Refused b.start := by
  simp only [start]
  split
  · exact .done _
  · exact .withReply fun _ => .done _

theorem cycle_haltsOn (b : Bot) : HaltsOn Refused b.cycle := by
  refine .bind (start_haltsOn b) ?_ ?_
  · rintro d ⟨_, ready⟩ ⟨⟩
    exact ⟨_, ⟨rfl, rfl⟩, rfl⟩
  · rintro ⟨e | _, ready⟩
    · exact .done _
    · refine .bind (tick_haltsOn ready) ?_ ?_
      · rintro d ⟨_, after⟩ ⟨⟩
        exact ⟨_, ⟨rfl, rfl⟩, rfl⟩
      · rintro ⟨e | _, after⟩
        · exact .done _
        · exact .done _

def SessionState.HaltedBy (detail : String) (state : SessionState) : Prop :=
  ∃ b, state = .ended (some (.gateway (.unauthorized detail))) b

theorem next_haltsOn (state : SessionState) (e : SessionEvent) :
    HaltsOn SessionState.HaltedBy (state.next e) := by
  cases state with
  | ended => exact .done _
  | waiting b =>
    cases e with
    | shutdown => exact .done _
    | tick =>
      refine .bind (cycle_haltsOn b) ?_ ?_
      · rintro d ⟨_, after⟩ ⟨⟩
        exact ⟨_, ⟨rfl, rfl⟩, after, rfl⟩
      · rintro ⟨e | _, after⟩ <;> exact .done _

/-- A session that has ended takes no notice of what comes. -/
theorem ended_foldlM (error : Option BotError) (b : Bot) (events : List SessionEvent) :
    events.foldlM SessionState.next (.ended error b) = .done (.ended error b) := by
  induction events with
  | nil => rfl
  | cons e events ih => exact ih

theorem session_haltsOn (b : Bot) (events : List SessionEvent) :
    HaltsOn SessionState.HaltedBy (b.session events) := by
  rw [session]
  generalize SessionState.waiting b = state
  induction events generalizing state with
  | nil => exact .done _
  | cons e events ih =>
    rw [List.foldlM_cons]
    refine .bind (next_haltsOn state e) ?_ ih
    rintro d _ ⟨b, rfl⟩
    rw [ended_foldlM]
    exact ⟨_, ⟨rfl, rfl⟩, b, rfl⟩

end FuturesDesk.Bot
