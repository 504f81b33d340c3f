import FuturesDesk.Config.BotConfig
import FuturesDesk.Proofs.Config.Messages
import FuturesDesk.Proofs.Decimal.Value

/-! What is wrong with the configuration of a bot. A bot is refused with a list of problems that is
complete, in order, and free of consequences: a part that could not be made is not reported as
missing beside the reason why. -/
namespace FuturesDesk

namespace Violation

def reportUnless (passed : Prop) [Decidable passed] (v : Violation) : List Violation :=
  if passed then [] else [v]

variable {p q : Prop} [Decidable p] [Decidable q] {v : Violation}

@[simp] theorem reportUnless_eq_nil_iff : reportUnless p v = [] ↔ p := by
  rw [reportUnless]
  split <;> simp_all

theorem forall_mem_reportUnless {P : Violation → Prop} :
    (∀ w ∈ reportUnless p v, P w) ↔ (¬ p → P v) := by
  rw [reportUnless]
  split <;> simp_all

theorem ite_eq_reportUnless (same : q ↔ ¬ p) (v : Violation) :
    (if q then [v] else []) = reportUnless p v := by
  by_cases passed : p
  · rw [reportUnless, if_pos passed, if_neg (fun failed => same.mp failed passed)]
  · rw [reportUnless, if_neg passed, if_pos (same.mpr passed)]

end Violation

namespace Pipeline

def knownNames : List String := standard.names

theorem ofName?_isNone_iff {name : String} :
    (Indicator.ofName? name).isNone = true ↔ name ∉ knownNames := by
  rw [Option.isNone_iff_eq_none, Indicator.ofName?, List.find?_eq_none]
  simp [knownNames, names, standard]

theorem ofNames_eq (names : List String) :
    ofNames names = if ∀ name ∈ names, name ∈ knownNames then
      .ok ⟨names.filterMap Indicator.ofName?⟩ else .error (names.filter (· ∉ knownNames)) := by
  have same : (names.filter fun n => (Indicator.ofName? n).isNone) =
      names.filter (· ∉ knownNames) := by
    refine List.filter_congr fun name _ => ?_
    rw [Bool.eq_iff_iff, ofName?_isNone_iff, decide_eq_true_iff]
  rw [ofNames, same]
  split
  case h_1 none_ =>
    rw [List.filter_eq_nil_iff] at none_
    rw [if_pos (by simpa using none_)]
  case h_2 some_ =>
    rw [if_neg]
    intro known
    refine some_ (List.filter_eq_nil_iff.mpr ?_)
    simpa using known

/-- Known names are the names of what they are read as. -/
theorem names_of_known {names : List String} (known : ∀ name ∈ names, name ∈ knownNames) :
    (names.filterMap Indicator.ofName?).map Indicator.name = names := by
  induction names with
  | nil => rfl
  | cons name names ih =>
    have found : (Indicator.ofName? name).isNone ≠ true :=
      mt ofName?_isNone_iff.mp (not_not.mpr (known name List.mem_cons_self))
    obtain ⟨i, found⟩ := Option.ne_none_iff_exists'.mp (mt Option.isNone_iff_eq_none.mpr found)
    have same : i.name = name := by simpa using List.find?_some found
    rw [List.filterMap_cons_some found, List.map_cons, same,
      ih fun name member => known name (List.mem_cons_of_mem _ member)]

end Pipeline

namespace BotDraft

variable {α : Type} {part : BotPart} {given : Option α}

theorem missing_eq_reportUnless {p : Prop} [Decidable p] (same : given.isSome = true ↔ p) :
    missing part given = Violation.reportUnless p (.missingPart part) := by
  refine Violation.ite_eq_reportUnless ?_ _
  rw [← same]
  cases given <;> simp

theorem missing_eq_nil_iff : missing part given = [] ↔ given.isSome = true := by
  rw [missing_eq_reportUnless Iff.rfl, Violation.reportUnless_eq_nil_iff]

/-- A draft is built if nothing is wrong with it, and else refused with what is. -/
theorem build_cases (d : BotDraft) :
    (∃ params, d.build = .ok params ∧ d.violations = []) ∨
      (d.build = .error ⟨d.violations⟩ ∧ d.violations ≠ []) := by
  by_cases none_ : d.violations = []
  · have parts := none_
    simp only [violations, List.append_eq_nil_iff, missing_eq_nil_iff,
      Option.isSome_iff_exists] at parts
    obtain ⟨⟨⟨⟨⟨⟨_, direction, given⟩, pipeline, computed⟩, stop, followed⟩, traded⟩, _⟩, _⟩ :=
      parts
    cases trading : d.trading with
    | none =>
      rw [trading] at traded
      cases traded
    | some values =>
      refine .inl ⟨⟨pipeline, ⟨d.entry, d.exit, direction⟩, stop, values⟩, ?_, none_⟩
      simp only [build, given, computed, followed, trading, none_, List.isEmpty_nil, if_true]
  · refine .inr ⟨?_, none_⟩
    have some_ : ¬ d.violations.isEmpty = true := mt List.isEmpty_iff.mp none_
    simp only [build]
    split
    · rw [if_neg some_]
    · rfl

end BotDraft

namespace BotConfig
open Violation

abbrev NamesKnown (c : BotConfig) : Prop := ∀ name ∈ c.indicators, name ∈ Pipeline.knownNames

abbrev PercentFits (c : BotConfig) : Prop :=
  .zero < c.trailingStopPercent ∧ c.trailingStopPercent < .hundred

def references (c : BotConfig) : List (IndicatorComparison × Timeframe × String) :=
  (c.entryConditions ++ c.exitConditions).flatMap fun condition =>
    condition.references.map fun r => (condition, r)

structure IsSound (c : BotConfig) : Prop where
  names : c.NamesKnown
  percent : c.PercentFits
  symbol : Text.isBlankText c.symbol = false
  leverage : 1 ≤ c.leverage ∧ c.leverage ≤ 125
  quantity : .zero < c.quantity
  tickInterval : c.tickIntervalSecs.getD 60 ≠ 0
  lookbacks : c.dailyLookback.getD 200 ≠ 0 ∧ c.weeklyLookback.getD 60 ≠ 0
  entry : c.entryConditions ≠ []
  exit : c.exitConditions ≠ []
  computed : ∀ r ∈ c.references, r.2.2 ∈ c.indicators

def unknownNames (c : BotConfig) : List Violation :=
  (c.indicators.filter (· ∉ Pipeline.knownNames)).map .unknownIndicator

def tradingProblems (c : BotConfig) : List Violation :=
  reportUnless (Text.isBlankText c.symbol = false) .blankSymbol
    ++ reportUnless (1 ≤ c.leverage ∧ c.leverage ≤ 125) (.leverageOutOfRange c.leverage)
    ++ reportUnless (.zero < c.quantity) (.quantityNotPositive c.quantity)
    ++ reportUnless (c.tickIntervalSecs.getD 60 ≠ 0) .noTickInterval
    ++ reportUnless (c.dailyLookback.getD 200 ≠ 0 ∧ c.weeklyLookback.getD 60 ≠ 0) .noLookback

/-- References to readings that are not computed. What is computed is not known while some names
are not. -/
def uncomputed (c : BotConfig) : List Violation :=
  if c.NamesKnown then
    (c.references.filter fun r => r.2.2 ∉ c.indicators).map fun r =>
      .uncomputedIndicator r.1.name r.2.1 r.2.2
  else []

/-- The problems that leave no part of a bot out. -/
def valueProblems (c : BotConfig) : List Violation :=
  c.tradingProblems ++ reportUnless (c.entryConditions ≠ []) .noEntryConditions
    ++ reportUnless (c.exitConditions ≠ []) .noExitConditions ++ c.uncomputed

/-- Every problem of a configuration, in the order in which they are reported. -/
def problems (c : BotConfig) : List Violation :=
  c.unknownNames ++ reportUnless c.PercentFits (.percentOutOfRange c.trailingStopPercent)
    ++ c.valueProblems

/-- Without indicators or a stop a draft lacks a part. -/
def missingParts (c : BotConfig) : List Violation :=
  reportUnless c.NamesKnown (.missingPart .indicators)
    ++ reportUnless c.PercentFits (.missingPart .trailingStop)

variable {c : BotConfig}

theorem unknownNames_eq_nil_iff : c.unknownNames = [] ↔ c.NamesKnown := by
  simp only [unknownNames, List.map_eq_nil_iff, List.filter_eq_nil_iff, decide_eq_true_eq, not_not]

theorem uncomputed_eq_nil_iff (known : c.NamesKnown) :
    c.uncomputed = [] ↔ ∀ r ∈ c.references, r.2.2 ∈ c.indicators := by
  simp only [uncomputed, if_pos known, List.map_eq_nil_iff, List.filter_eq_nil_iff,
    decide_eq_true_eq, not_not]

theorem problems_eq_nil_iff : c.problems = [] ↔ c.IsSound := by
  simp only [problems, valueProblems, tradingProblems, List.append_eq_nil_iff,
    reportUnless_eq_nil_iff, unknownNames_eq_nil_iff]
  constructor
  · rintro ⟨⟨names, percent⟩,
      ⟨⟨⟨⟨⟨⟨symbol, leverage⟩, quantity⟩, tick⟩, lookbacks⟩, entry⟩, exit⟩, computed⟩
    exact ⟨names, percent, symbol, leverage, quantity, tick, lookbacks, entry, exit,
      (uncomputed_eq_nil_iff names).mp computed⟩
  · rintro ⟨names, percent, symbol, leverage, quantity, tick, lookbacks, entry, exit, computed⟩
    exact ⟨⟨names, percent⟩,
      ⟨⟨⟨⟨⟨⟨symbol, leverage⟩, quantity⟩, tick⟩, lookbacks⟩, entry⟩, exit⟩,
      (uncomputed_eq_nil_iff names).mpr computed⟩

/-- Problems are neither about missing parts nor in the words of somebody else. -/
theorem problems_written :
    ∀ v ∈ c.problems, v.isMissingPart = false ∧ ∀ text, v ≠ .stated text := by
  simp only [problems, valueProblems, unknownNames, tradingProblems, List.forall_mem_append,
    forall_mem_reportUnless, List.forall_mem_map]
  refine ⟨⟨?_, ?_⟩, ⟨⟨⟨⟨⟨⟨?_, ?_⟩, ?_⟩, ?_⟩, ?_⟩, ?_⟩, ?_⟩, ?uncomputed⟩
  case uncomputed =>
    rw [uncomputed]
    split
    · exact List.forall_mem_map.mpr fun _ _ => ⟨rfl, nofun⟩
    · exact nofun
  all_goals
    intros
    exact ⟨rfl, nofun⟩

/-! What the checks find, one after the other. -/

theorem pipeline_eq (c : BotConfig) :
    c.pipeline = if c.NamesKnown then .ok ⟨c.indicators.filterMap Indicator.ofName?⟩
      else .error (c.indicators.filter (· ∉ Pipeline.knownNames)) :=
  Pipeline.ofNames_eq c.indicators

theorem stop_eq (c : BotConfig) :
    c.stop = if c.PercentFits then .ok ⟨c.trailingStopPercent, none⟩
      else .error (.invalidPercent c.trailingStopPercent) := by
  have outside : c.trailingStopPercent ≤ .zero ∨ .hundred ≤ c.trailingStopPercent ↔
      ¬ c.PercentFits := by
    rw [PercentFits, not_and_or, ← Decimal.not_le_iff, ← Decimal.not_le_iff, not_not, not_not]
  rw [stop, TrailingStop.ofPercent]
  by_cases fits : c.PercentFits
  · rw [if_pos fits, if_neg (fun out => outside.mp out fits)]
  · rw [if_neg fits, if_pos (outside.mpr fits)]

theorem partViolations_eq (c : BotConfig) :
    c.partViolations =
      c.unknownNames ++ reportUnless c.PercentFits (.percentOutOfRange c.trailingStopPercent) := by
  rw [partViolations]
  refine congrArg₂ (· ++ ·) ?names ?percent
  case names =>
    rw [pipeline_eq]
    by_cases known : c.NamesKnown
    · rw [if_pos known, unknownNames_eq_nil_iff.mpr known]
    · rw [if_neg known, unknownNames]
  case percent =>
    rw [stop_eq, reportUnless]
    by_cases fits : c.PercentFits
    · rw [if_pos fits, if_pos fits]
    · rw [if_neg fits, if_neg fits]

theorem problems_eq (c : BotConfig) : c.problems = c.partViolations ++ c.valueProblems := by
  rw [problems, partViolations_eq]

theorem trading_violations (c : BotConfig) : c.trading.violations = c.tradingProblems := by
  have symbol : (if Text.isBlankText c.symbol then [blankSymbol] else []) =
      reportUnless (Text.isBlankText c.symbol = false) .blankSymbol :=
    ite_eq_reportUnless (Bool.not_eq_false _).symm.to_iff _
  have quantity : (if c.quantity ≤ .zero then [quantityNotPositive c.quantity] else []) =
      reportUnless (.zero < c.quantity) (.quantityNotPositive c.quantity) :=
    ite_eq_reportUnless (by rw [← Decimal.not_le_iff, not_not]) _
  have tick : (if c.tickIntervalSecs.getD 60 = 0 then [noTickInterval] else []) =
      reportUnless (c.tickIntervalSecs.getD 60 ≠ 0) .noTickInterval :=
    ite_eq_reportUnless not_not.symm _
  have lookbacks : (if c.dailyLookback.getD 200 = 0 ∨ c.weeklyLookback.getD 60 = 0 then
        [noLookback] else []) =
      reportUnless (c.dailyLookback.getD 200 ≠ 0 ∧ c.weeklyLookback.getD 60 ≠ 0) .noLookback :=
    ite_eq_reportUnless (by rw [not_and_or, not_not, not_not]) _
  rw [tradingProblems, ← symbol, ← quantity, ← tick, ← lookbacks]
  rfl

theorem rules_violations (c : BotConfig) :
    Rules.violations c.draft.entry c.draft.exit =
      reportUnless (c.entryConditions ≠ []) .noEntryConditions
        ++ reportUnless (c.exitConditions ≠ []) .noExitConditions := by
  have empty (l : List IndicatorComparison) :
      (l.map (·.toCondition)).isEmpty = true ↔ ¬ l ≠ [] := by
    rw [List.isEmpty_map, List.isEmpty_iff, not_not]
  rw [Rules.violations, draft, ite_eq_reportUnless (empty _), ite_eq_reportUnless (empty _)]

theorem uncomputed_flatMap (known : c.NamesKnown) :
    (c.draft.entry ++ c.draft.exit).flatMap
      (BotDraft.uncomputed ⟨c.indicators.filterMap Indicator.ofName?⟩) = c.uncomputed := by
  have contains (name : String) :
      (⟨c.indicators.filterMap Indicator.ofName?⟩ : Pipeline).contains name = true ↔
        name ∈ c.indicators := by
    rw [Pipeline.contains, Pipeline.names, Pipeline.names_of_known known, List.contains_iff_mem]
  rw [uncomputed, if_pos known, references, List.filter_flatMap, List.map_flatMap, draft,
    ← List.map_append, List.flatMap_map]
  refine congrArg (fun f => List.flatMap f (c.entryConditions ++ c.exitConditions)) ?_
  funext condition
  rw [List.filter_map, List.map_map, BotDraft.uncomputed]
  simp only [contains]
  rfl

theorem draft_violations (c : BotConfig) :
    c.draft.violations = c.missingParts ++ c.valueProblems := by
  have indicators : BotDraft.missing .indicators c.pipeline.toOption =
      reportUnless c.NamesKnown (.missingPart .indicators) := by
    refine BotDraft.missing_eq_reportUnless ?_
    rw [pipeline_eq]
    by_cases known : c.NamesKnown
    · rw [if_pos known]
      exact iff_of_true rfl known
    · rw [if_neg known]
      exact iff_of_false Bool.false_ne_true known
  have stop : BotDraft.missing .trailingStop c.stop.toOption =
      reportUnless c.PercentFits (.missingPart .trailingStop) := by
    refine BotDraft.missing_eq_reportUnless ?_
    rw [stop_eq]
    by_cases fits : c.PercentFits
    · rw [if_pos fits]
      exact iff_of_true rfl fits
    · rw [if_neg fits]
      exact iff_of_false Bool.false_ne_true fits
  have found : c.draft.violations = [] ++ [] ++ BotDraft.missing .indicators c.pipeline.toOption
      ++ BotDraft.missing .trailingStop c.stop.toOption ++ c.trading.violations
      ++ Rules.violations c.draft.entry c.draft.exit ++ _ := rfl
  rw [found, indicators, stop, trading_violations, rules_violations, missingParts, valueProblems]
  simp only [List.nil_append, List.append_assoc, List.append_cancel_left_eq]
  have pipeline : c.draft.pipeline = c.pipeline.toOption := rfl
  rw [pipeline, pipeline_eq]
  by_cases known : c.NamesKnown
  · rw [if_pos known]
    exact uncomputed_flatMap known
  · rw [if_neg known, uncomputed, if_neg known]
    rfl

theorem missingParts_eq_nil_iff : c.missingParts = [] ↔ c.NamesKnown ∧ c.PercentFits := by
  rw [missingParts, List.append_eq_nil_iff, reportUnless_eq_nil_iff, reportUnless_eq_nil_iff]

/-- All that the draft reports beside missing parts are problems of the configuration. -/
theorem filter_draft (c : BotConfig) :
    c.draft.violations.filter (fun v => ¬ v.isMissingPart) = c.valueProblems := by
  have parts : c.missingParts.filter (fun v => ¬ v.isMissingPart) = [] := by
    rw [List.filter_eq_nil_iff, missingParts, List.forall_mem_append, forall_mem_reportUnless,
      forall_mem_reportUnless]
    exact ⟨fun _ => by decide, fun _ => by decide⟩
  have own : c.valueProblems.filter (fun v => ¬ v.isMissingPart) = c.valueProblems := by
    refine List.filter_eq_self.mpr fun v member => ?_
    have written := (problems_written v (List.mem_append_right _ member)).1
    simp [written]
  rw [draft_violations, List.filter_append, parts, own, List.nil_append]

/-- Leaving out the messages that end like one about a missing part leaves the same. -/
theorem filter_messages (c : BotConfig) :
    (c.draft.violations.map Violation.message).filter (fun text => ¬ text.endsWith "is required") =
      c.valueProblems.map Violation.message := by
  have written : ∀ v ∈ c.draft.violations, ∀ text, v ≠ .stated text := by
    rw [draft_violations, missingParts, List.forall_mem_append, List.forall_mem_append,
      forall_mem_reportUnless, forall_mem_reportUnless]
    exact ⟨⟨fun _ => nofun, fun _ => nofun⟩,
      fun v member => (problems_written v (List.mem_append_right _ member)).2⟩
  rw [List.filter_map, ← filter_draft]
  refine congrArg (List.map _) (List.filter_congr fun v member => ?_)
  rw [Function.comp_apply, endsWith_required (written v member)]

/-- A configuration is taken if it has no problems, and else refused with all of them. -/
theorem toParams_reports (c : BotConfig) :
    (c.problems = [] ∧ ∃ params, c.toParams = .ok params) ∨
      (c.problems ≠ [] ∧ c.toParams = .error ⟨c.problems⟩) := by
  rcases c.draft.build_cases with ⟨params, built, none_⟩ | ⟨refused, some_⟩
  · rw [draft_violations, List.append_eq_nil_iff] at none_
    rw [problems_eq, none_.2, List.append_nil, toParams, built]
    cases c.partViolations with
    | nil => exact .inl ⟨rfl, params, rfl⟩
    | cons v vs => exact .inr ⟨List.cons_ne_nil _ _, rfl⟩
  · refine .inr ⟨?_, ?_⟩
    · intro none_
      obtain ⟨names, percent⟩ : c.NamesKnown ∧ c.PercentFits :=
        ⟨(problems_eq_nil_iff.mp none_).names, (problems_eq_nil_iff.mp none_).percent⟩
      rw [problems, List.append_eq_nil_iff] at none_
      rw [draft_violations, missingParts_eq_nil_iff.mpr ⟨names, percent⟩, none_.2] at some_
      exact some_ rfl
    · rw [toParams, refused, problems_eq, ← filter_draft]

/-- A configuration is taken exactly if it is sound. Any other is refused with its problems, all of
them, in order and each once. To leave out what ends like a message about a missing part leaves out
nothing else, whatever symbols, names and numbers the other messages quote. -/
theorem refused_with_all_problems (c : BotConfig) :
    ((∃ params, c.toParams = .ok params) ↔ c.IsSound) ∧
    (∀ e, c.toParams = .error e ↔ ¬ c.IsSound ∧ e = ⟨c.problems⟩) ∧
    (c.problems = [] ↔ c.IsSound) ∧
    (∀ v ∈ c.problems, v.message.endsWith "is required" = false) ∧
    c.problems.map Violation.message = c.partViolations.map Violation.message ++
      (c.draft.violations.map Violation.message).filter
        fun text => ¬ text.endsWith "is required" := by
  have reports := c.toParams_reports
  rw [Ne, problems_eq_nil_iff] at reports
  refine ⟨?taken, ?refused, problems_eq_nil_iff, ?kept, ?filtered⟩
  case taken =>
    rcases reports with ⟨sound, taken⟩ | ⟨unsound, refused⟩
    · exact iff_of_true taken sound
    · refine iff_of_false ?_ unsound
      rintro ⟨params, taken⟩
      cases taken.symm.trans refused
  case refused =>
    intro e
    rcases reports with ⟨sound, params, taken⟩ | ⟨unsound, refused⟩
    · rw [taken]
      exact iff_of_false nofun fun unsound => unsound.1 sound
    · rw [refused, Except.error.injEq, eq_comm]
      exact (and_iff_right unsound).symm
  case kept =>
    intro v member
    obtain ⟨other, written⟩ := problems_written v member
    rw [endsWith_required written, other]
  case filtered => rw [filter_messages, problems_eq, List.map_append]

/-- An indicator that nobody knows, with a name that reads like a message about a missing part, a
stop of no percent and no way out. -/
def aimless : BotConfig where
  symbol := "BTCUSDT"
  direction := .long
  leverage := 3
  quantity := .one
  trailingStopPercent := .zero
  tickIntervalSecs := none
  dailyLookback := none
  weeklyLookback := none
  indicators := ["RSI", "VWAP is required"]
  entryConditions := [.aboveIndicator .daily "MACD" "MACD_SIGNAL"]
  exitConditions := []

theorem aimless_refused :
    aimless.toParams = .error ⟨[.unknownIndicator "VWAP is required", .percentOutOfRange .zero,
      .noExitConditions]⟩ ∧
    (unknownIndicator "VWAP is required").message.endsWith "is required" = false := by
  have found : aimless.problems = [.unknownIndicator "VWAP is required", .percentOutOfRange .zero,
      .noExitConditions] := by decide
  obtain ⟨_, refused, sound, kept, _⟩ := refused_with_all_problems aimless
  rw [found] at refused sound kept
  have unsound : ¬ aimless.IsSound := fun sound_ => List.cons_ne_nil _ _ (sound.mpr sound_)
  exact ⟨(refused _).mpr ⟨unsound, rfl⟩, kept _ List.mem_cons_self⟩

end BotConfig

end FuturesDesk
