import FuturesDesk.Proofs.Strategy.Condition
import FuturesDesk.Strategy.Rules

/-! What a decision rests on. Rules look at the position first, then at the stop, then at the
conditions, and a condition holds by the readings it refers to. So readings that get lost can cancel
an action but never cause one, and the order of the conditions decides no more than which of several
exits is named. -/
namespace FuturesDesk

namespace Snapshot

/-- A snapshot has no other readings than a second one, and maybe fewer. -/
def PartOf (t s : Snapshot) : Prop :=
  ∀ timeframe name value, t.get? timeframe name = some value → s.get? timeframe name = some value

end Snapshot

namespace Readings

def without (lost : String → Bool) (r : Readings) : Readings :=
  { r with values := r.values.map fun v => (v.1, if lost v.1 then none else v.2) }

theorem get?_without (lost : String → Bool) (r : Readings) (name : String) :
    (r.without lost).get? name = if lost name then none else r.get? name := by
  have named : ((r.without lost).values.find? fun v => v.1 = name) =
      (r.values.find? fun v => v.1 = name).map
        fun v => (v.1, if lost v.1 then none else v.2) := List.find?_map
  rw [get?, get?, named]
  cases found : r.values.find? fun v => v.1 = name with
  | none => simp
  | some v =>
    have same : v.1 = name := by simpa using List.find?_some found
    by_cases gone : lost name <;> simp [same, gone]

end Readings

namespace Snapshot

def without (lost : Timeframe → String → Bool) (s : Snapshot) : Snapshot :=
  ⟨s.daily.without (lost .daily), s.weekly.without (lost .weekly)⟩

theorem get?_without (lost : Timeframe → String → Bool) (s : Snapshot) (t : Timeframe)
    (name : String) :
    (s.without lost).get? t name = if lost t name then none else s.get? t name := by
  cases t with
  | daily => exact s.daily.get?_without _ name
  | weekly => exact s.weekly.get?_without _ name

theorem without_partOf (lost : Timeframe → String → Bool) (s : Snapshot) :
    (s.without lost).PartOf s := by
  intro t name value found
  rw [get?_without] at found
  split at found
  · cases found
  · exact found

end Snapshot

namespace IndicatorComparison
variable {c : IndicatorComparison} {s t : Snapshot}

/-- What holds on fewer readings holds on all of them. -/
theorem holds_of_partOf (fewer : t.PartOf s) (holds : c.holds t = true) : c.holds s = true := by
  have agree : ∀ r ∈ c.references, s.get? r.1 r.2 = t.get? r.1 r.2 := by
    intro r member
    obtain ⟨value, found⟩ := available_of_holds holds r member
    rw [found, fewer _ _ _ found]
  exact (holds_congr agree).trans holds

end IndicatorComparison

namespace Rules
variable {r : Rules} {s t : Snapshot} {stop : TrailingStop} {price : Decimal} {decision : Decision}

/-- How rules decide, with what the decision rests on. -/
inductive Decides (r : Rules) (s : Snapshot) (stop : TrailingStop) (price : Decimal) :
    Decision → Prop where
  | trailed {level : Decimal} (following : stop.isOpen = true)
      (reached : stop.triggeredStop? price = .ok (some level)) :
      Decides r s stop price (.exit (.trailingStop level))
  | left {c : Condition} (following : stop.isOpen = true)
      (untouched : stop.triggeredStop? price = .ok none) (first : r.exitCondition? s = some c) :
      Decides r s stop price (.exit (.condition c.name))
  | stayed (following : stop.isOpen = true) (untouched : stop.triggeredStop? price = .ok none)
      (none_ : r.exitCondition? s = none) : Decides r s stop price .hold
  | entered (flat : stop.isOpen = false) (all : ∀ c ∈ r.entry, c.holds s = true) :
      Decides r s stop price (.enter r.direction)
  | waited (flat : stop.isOpen = false) (some_ : ¬ ∀ c ∈ r.entry, c.holds s = true) :
      Decides r s stop price .hold

theorem decides (evaluated : r.evaluate s stop price = .ok decision) :
    r.Decides s stop price decision := by
  simp only [evaluate] at evaluated
  split at evaluated
  case isTrue following =>
    cases triggered : stop.triggeredStop? price with
    | error =>
      rw [triggered] at evaluated
      cases evaluated
    | ok level =>
      cases level with
      | some level =>
        rw [triggered] at evaluated
        cases evaluated
        exact .trailed following triggered
      | none =>
        cases first : r.exitCondition? s with
        | none =>
          simp only [triggered, first] at evaluated
          cases evaluated
          exact .stayed following triggered first
        | some c =>
          simp only [triggered, first] at evaluated
          cases evaluated
          exact .left following triggered first
  case isFalse flat =>
    have flat : stop.isOpen = false := by simpa using flat
    split at evaluated
    case isTrue all =>
      cases evaluated
      exact .entered flat (List.all_eq_true.mp all)
    case isFalse some_ =>
      cases evaluated
      exact .waited flat (mt List.all_eq_true.mpr some_)

theorem evaluate_of_decides (decides : r.Decides s stop price decision) :
    r.evaluate s stop price = .ok decision := by
  cases decides with
  | trailed following reached =>
    simp only [evaluate, following, reached, if_true]
    rfl
  | left following untouched first =>
    simp only [evaluate, following, untouched, first, if_true]
    rfl
  | stayed following untouched none_ =>
    simp only [evaluate, following, untouched, none_, if_true]
    rfl
  | entered flat all =>
    rw [evaluate, flat, if_neg Bool.false_ne_true, if_pos (List.all_eq_true.mpr all)]
    rfl
  | waited flat some_ =>
    rw [evaluate, flat, if_neg Bool.false_ne_true, if_neg (mt List.all_eq_true.mp some_)]
    rfl

theorem evaluate_ok_iff :
    r.evaluate s stop price = .ok decision ↔ r.Decides s stop price decision :=
  ⟨decides, evaluate_of_decides⟩

/-- Only the stop price can be out of range. -/
theorem evaluate_error_iff {fault : Decimal.Fault} :
    r.evaluate s stop price = .error fault ↔
      stop.isOpen = true ∧ stop.triggeredStop? price = .error fault := by
  constructor
  · intro failed
    have undecided {decision : Decision} (decides : r.Decides s stop price decision) : False := by
      rw [evaluate_of_decides decides] at failed
      cases failed
    cases following : stop.isOpen with
    | false =>
      by_cases all : ∀ c ∈ r.entry, c.holds s = true
      · exact (undecided (.entered following all)).elim
      · exact (undecided (.waited following all)).elim
    | true =>
      cases triggered : stop.triggeredStop? price with
      | error =>
        rw [evaluate, if_pos following, triggered] at failed
        cases failed
        exact ⟨rfl, rfl⟩
      | ok level =>
        cases level with
        | some => exact (undecided (.trailed following triggered)).elim
        | none =>
          cases first : r.exitCondition? s with
          | none => exact (undecided (.stayed following triggered first)).elim
          | some => exact (undecided (.left following triggered first)).elim
  · rintro ⟨following, failed⟩
    rw [evaluate, if_pos following, failed]
    rfl

def comparing (entry exit : List IndicatorComparison) (direction : Direction) : Rules :=
  ⟨entry.map (·.toCondition), exit.map (·.toCondition), direction⟩

section
variable {entry exit : List IndicatorComparison} {direction d : Direction} {name : String}

theorem exitCondition?_comparing : (comparing entry exit direction).exitCondition? s =
    (exit[exit.findIdx (·.holds s)]?).map (·.toCondition) := by
  rw [← List.find?_eq_getElem?_findIdx]
  exact List.find?_map

theorem holds_all_comparing : (∀ c ∈ (comparing entry exit direction).entry, c.holds s = true) ↔
    ∀ c ∈ entry, c.holds s = true :=
  List.forall_mem_map

/-- The first exit is no later when there are more readings. -/
theorem findIdx_le_of_partOf (fewer : t.PartOf s) :
    exit.findIdx (·.holds s) ≤ exit.findIdx (·.holds t) :=
  List.findIdx_le_findIdx fun _ _ holds => IndicatorComparison.holds_of_partOf fewer holds

theorem enter_iff : (comparing entry exit direction).evaluate s stop price = .ok (.enter d) ↔
    d = direction ∧ stop.isOpen = false ∧ ∀ c ∈ entry, c.holds s = true := by
  rw [evaluate_ok_iff]
  constructor
  · intro decides
    cases decides with
    | entered flat all => exact ⟨rfl, flat, holds_all_comparing.mp all⟩
  · rintro ⟨rfl, flat, all⟩
    exact .entered flat (holds_all_comparing.mpr all)

theorem exit_condition_iff :
    (comparing entry exit direction).evaluate s stop price = .ok (.exit (.condition name)) ↔
      stop.isOpen = true ∧ stop.triggeredStop? price = .ok none ∧
        ∃ c, exit[exit.findIdx (·.holds s)]? = some c ∧ c.name = name := by
  rw [evaluate_ok_iff]
  constructor
  · intro decides
    cases decides with
    | left following untouched first =>
      rw [exitCondition?_comparing, Option.map_eq_some_iff] at first
      obtain ⟨c, found, rfl⟩ := first
      exact ⟨following, untouched, c, found, rfl⟩
  · rintro ⟨following, untouched, c, found, rfl⟩
    refine .left (c := c.toCondition) following untouched ?_
    rw [exitCondition?_comparing, found]
    rfl

theorem exit_trailingStop_iff {r : Rules} {level : Decimal} :
    r.evaluate s stop price = .ok (.exit (.trailingStop level)) ↔
      stop.isOpen = true ∧ stop.triggeredStop? price = .ok (some level) := by
  rw [evaluate_ok_iff]
  constructor
  · intro decides
    cases decides with
    | trailed following reached => exact ⟨following, reached⟩
  · rintro ⟨following, reached⟩
    exact .trailed following reached

theorem exit_iff :
    (∃ reason, (comparing entry exit direction).evaluate s stop price = .ok (.exit reason)) ↔
      stop.isOpen = true ∧ ((∃ level, stop.triggeredStop? price = .ok (some level)) ∨
        stop.triggeredStop? price = .ok none ∧ ∃ c ∈ exit, c.holds s = true) := by
  constructor
  · rintro ⟨level | name, exits⟩
    · obtain ⟨following, reached⟩ := exit_trailingStop_iff.mp exits
      exact ⟨following, .inl ⟨level, reached⟩⟩
    · obtain ⟨following, untouched, c, found, _⟩ := exit_condition_iff.mp exits
      rw [← List.find?_eq_getElem?_findIdx] at found
      exact ⟨following, .inr ⟨untouched, c, List.mem_of_find?_eq_some found,
        List.find?_some (p := fun c : IndicatorComparison => c.holds s) found⟩⟩
  · rintro ⟨following, ⟨level, reached⟩ | ⟨untouched, c, listed, holds⟩⟩
    · exact ⟨_, exit_trailingStop_iff.mpr ⟨following, reached⟩⟩
    · have some_ : (exit.find? (·.holds s)).isSome := List.find?_isSome.mpr ⟨c, listed, holds⟩
      obtain ⟨first, found⟩ := Option.isSome_iff_exists.mp some_
      rw [List.find?_eq_getElem?_findIdx] at found
      exact ⟨_, exit_condition_iff.mpr ⟨following, untouched, first, found, rfl⟩⟩

/-- An exit by a condition stays one when there are more readings, by the same condition or one
that is listed earlier. -/
theorem exit_condition_of_partOf (fewer : t.PartOf s)
    (exits : (comparing entry exit direction).evaluate t stop price =
      .ok (.exit (.condition name))) :
    ∃ c earlier, exit[exit.findIdx (·.holds t)]? = some c ∧ c.name = name ∧
      exit[exit.findIdx (·.holds s)]? = some earlier ∧
      exit.findIdx (·.holds s) ≤ exit.findIdx (·.holds t) ∧
      (comparing entry exit direction).evaluate s stop price =
        .ok (.exit (.condition earlier.name)) := by
  obtain ⟨following, untouched, c, found, named⟩ := exit_condition_iff.mp exits
  have no_later : exit.findIdx (·.holds s) ≤ exit.findIdx (·.holds t) :=
    findIdx_le_of_partOf fewer
  have inside : exit.findIdx (·.holds s) < exit.length :=
    Nat.lt_of_le_of_lt no_later (List.getElem?_eq_some_iff.mp found).1
  exact ⟨c, _, found, named, List.getElem?_eq_getElem inside, no_later,
    exit_condition_iff.mpr ⟨following, untouched, _, List.getElem?_eq_getElem inside, rfl⟩⟩

/-- Readings that get lost can cancel an action but never cause one, and the order of conditions
does not matter to whether one happens. What rules enter or exit by on fewer readings they enter or
exit by on all of them, an exit by the same condition or an earlier one; the trailing stop and
faults do not depend on readings at all. -/
theorem lost_readings_cause_nothing (fewer : t.PartOf s) (entry exit : List IndicatorComparison)
    (direction : Direction) (stop : TrailingStop) (price : Decimal) :
    (∀ d, (comparing entry exit direction).evaluate t stop price = .ok (.enter d) →
      (comparing entry exit direction).evaluate s stop price = .ok (.enter d)) ∧
    (∀ name, (comparing entry exit direction).evaluate t stop price =
        .ok (.exit (.condition name)) →
      ∃ c earlier, exit[exit.findIdx (·.holds t)]? = some c ∧ c.name = name ∧
        exit[exit.findIdx (·.holds s)]? = some earlier ∧
        exit.findIdx (·.holds s) ≤ exit.findIdx (·.holds t) ∧
        (comparing entry exit direction).evaluate s stop price =
          .ok (.exit (.condition earlier.name))) ∧
    (∀ level, (comparing entry exit direction).evaluate t stop price =
        .ok (.exit (.trailingStop level)) ↔
      (comparing entry exit direction).evaluate s stop price =
        .ok (.exit (.trailingStop level))) ∧
    (∀ fault, (comparing entry exit direction).evaluate t stop price = .error fault ↔
      (comparing entry exit direction).evaluate s stop price = .error fault) ∧
    ((comparing entry exit direction).evaluate s stop price = .ok .hold →
      (comparing entry exit direction).evaluate t stop price = .ok .hold) ∧
    ∀ entry' exit', entry'.Perm entry → exit'.Perm exit →
      (∀ d, (comparing entry' exit' direction).evaluate s stop price = .ok (.enter d) ↔
        (comparing entry exit direction).evaluate s stop price = .ok (.enter d)) ∧
      ((∃ reason, (comparing entry' exit' direction).evaluate s stop price = .ok (.exit reason)) ↔
        ∃ reason, (comparing entry exit direction).evaluate s stop price = .ok (.exit reason)) := by
  have entered : ∀ d, (comparing entry exit direction).evaluate t stop price = .ok (.enter d) →
      (comparing entry exit direction).evaluate s stop price = .ok (.enter d) := by
    intro d enters
    obtain ⟨same, flat, all⟩ := enter_iff.mp enters
    exact enter_iff.mpr ⟨same, flat, fun c listed => c.holds_of_partOf fewer (all c listed)⟩
  have trailed : ∀ level, (comparing entry exit direction).evaluate t stop price =
        .ok (.exit (.trailingStop level)) ↔
      (comparing entry exit direction).evaluate s stop price =
        .ok (.exit (.trailingStop level)) :=
    fun level => exit_trailingStop_iff.trans exit_trailingStop_iff.symm
  have faulty : ∀ fault, (comparing entry exit direction).evaluate t stop price = .error fault ↔
      (comparing entry exit direction).evaluate s stop price = .error fault :=
    fun fault => evaluate_error_iff.trans evaluate_error_iff.symm
  refine ⟨entered, fun name => exit_condition_of_partOf fewer, trailed, faulty, ?held, ?ordered⟩
  case held =>
    intro holds
    cases fewerDecision : (comparing entry exit direction).evaluate t stop price with
    | error fault => cases holds.symm.trans ((faulty fault).mp fewerDecision)
    | ok decision =>
      cases decision with
      | hold => rfl
      | enter d => cases holds.symm.trans (entered d fewerDecision)
      | exit reason =>
        cases reason with
        | trailingStop level => cases holds.symm.trans ((trailed level).mp fewerDecision)
        | condition name =>
          obtain ⟨_, _, _, _, _, _, exits⟩ := exit_condition_of_partOf fewer fewerDecision
          cases holds.symm.trans exits
  case ordered =>
    intro entry' exit' sameEntry sameExit
    constructor
    · intro d
      simp only [enter_iff, sameEntry.mem_iff]
    · simp only [exit_iff, sameExit.mem_iff]

/-- Rules that leave by the weekly trend or else by the daily one. While the weekly readings are
lost they still leave, by the later condition. -/
theorem leaves_without_weekly :
    let turned (timeframe : Timeframe) : IndicatorComparison :=
      .aboveIndicator timeframe "MACD_SIGNAL" "MACD"
    let r : Rules := comparing [.aboveIndicator .daily "MACD" "MACD_SIGNAL"]
      [turned .weekly, turned .daily] .long
    let s : Snapshot := ⟨⟨.daily, [("MACD", some 1.0), ("MACD_SIGNAL", some 2.0)]⟩,
      ⟨.weekly, [("MACD", some 1.0), ("MACD_SIGNAL", some 2.0)]⟩⟩
    let t : Snapshot := s.without fun timeframe _ => timeframe == .weekly
    let followed : TrailingStop := ⟨.one, some ⟨.long, .hundred, .hundred⟩⟩
    r.evaluate t followed .hundred = .ok (.exit (.condition "daily MACD_SIGNAL > MACD")) ∧
      r.evaluate s followed .hundred = .ok (.exit (.condition "weekly MACD_SIGNAL > MACD")) := by
  intro turned r s t followed
  have level : TrailingStop.stopOf .one ⟨.long, .hundred, .hundred⟩ =
      .ok ⟨9900, 2, by decide, by decide⟩ := by with_unfolding_all rfl
  have untouched : followed.triggeredStop? .hundred = .ok none := by
    simp only [TrailingStop.triggeredStop?, followed, level]
    rfl
  have last : [turned .weekly, turned .daily].findIdx (·.holds t) = 1 := by decide +kernel
  have first : [turned .weekly, turned .daily].findIdx (·.holds s) = 0 := by decide +kernel
  have leaves : r.evaluate t followed .hundred =
      .ok (.exit (.condition "daily MACD_SIGNAL > MACD")) := by
    refine exit_condition_iff.mpr ⟨rfl, untouched, turned .daily, ?_, by decide +kernel⟩
    rw [last]
    rfl
  obtain ⟨_, left, _⟩ := lost_readings_cause_nothing (s.without_partOf _)
    [.aboveIndicator .daily "MACD" "MACD_SIGNAL"] [turned .weekly, turned .daily] .long followed
    .hundred
  obtain ⟨_, earlier, _, _, found, _, exits⟩ := left _ leaves
  rw [first] at found
  cases found
  exact ⟨leaves, exits⟩

end

end Rules

end FuturesDesk
