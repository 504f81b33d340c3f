import FuturesDesk.Binary64.Text
import FuturesDesk.Dialect
import FuturesDesk.Indicator.Pipeline
import FuturesDesk.Text.Quoted

/-! Conditions on a snapshot of readings. The usual one compares a reading with a constant or with
another reading of the same timeframe, and fails while either is not available. -/
namespace FuturesDesk

/-- A condition as rules use it. -/
structure Condition where
  name : String
  /-- The readings that it looks at, for configuration checks. -/
  references : List (Timeframe × String)
  holds : Snapshot → Bool
  /-- How dumps of a configuration show it. -/
  dump : String

inductive Comparison where
  | above
  | atLeast
  | below
  | atMost
  deriving DecidableEq, Repr

namespace Comparison

def name : Comparison → String
  | above => "above"
  | atLeast => "at_least"
  | below => "below"
  | atMost => "at_most"

def debugName : Comparison → String
  | above => "Above"
  | atLeast => "AtLeast"
  | below => "Below"
  | atMost => "AtMost"

def symbol : Comparison → String
  | above => ">"
  | atLeast => ">="
  | below => "<"
  | atMost => "<="

def all : List Comparison := [above, atLeast, below, atMost]

def read? {V : Type} (d : Dialect V) (value : V) : Option Comparison :=
  (d.choice? (all.map name) value).bind fun n => all.find? (·.name = n)

def holds : Comparison → Float → Float → Bool
  | above, left, right => right < left
  | atLeast, left, right => right ≤ left
  | below, left, right => left < right
  | atMost, left, right => left ≤ right

end Comparison

/-- The right-hand side of a comparison. -/
inductive Operand where
  | constant (value : Float)
  | indicator (name : String)

namespace Operand

def text : Operand → String
  | constant value => Binary64.plainText value
  | indicator name => name

def dump : Operand → String
  | constant value => "Constant(" ++ Binary64.markedText value ++ ")"
  | indicator name => "Indicator(" ++ Text.quoted name ++ ")"

/-- A number as it is written, or else a name. -/
def read? {V : Type} (d : Dialect V) (value : V) : Option Operand :=
  let value := d.unconverted value
  match d.double? value with
  | some x => some (constant x)
  | none => (d.string? value).map indicator

def value? (snapshot : Snapshot) (t : Timeframe) : Operand → Option Float
  | constant value => some value
  | indicator name => snapshot.get? t name

end Operand

/-- A reading of one timeframe against an operand. -/
structure IndicatorComparison where
  timeframe : Timeframe
  indicator : String
  comparison : Comparison
  operand : Operand

namespace IndicatorComparison

def read? {V : Type} (d : Dialect V) (value : V) : Option IndicatorComparison := do
  let r ← d.record? ["timeframe", "indicator", "op", "value"] value
  return {
    timeframe := ← r.required "timeframe" (Timeframe.read? d)
    indicator := ← r.required "indicator" d.string?
    comparison := ← r.required "op" (Comparison.read? d)
    operand := ← r.required "value" (Operand.read? d) }

/-- One reading above another. -/
def aboveIndicator (t : Timeframe) (indicator other : String) : IndicatorComparison :=
  ⟨t, indicator, .above, .indicator other⟩

def againstConstant (t : Timeframe) (indicator : String) (comparison : Comparison) (value : Float) :
    IndicatorComparison :=
  ⟨t, indicator, comparison, .constant value⟩

def name (c : IndicatorComparison) : String :=
  c.timeframe.name ++ " " ++ c.indicator ++ " " ++ c.comparison.symbol ++ " " ++ c.operand.text

def references (c : IndicatorComparison) : List (Timeframe × String) :=
  (c.timeframe, c.indicator) :: match c.operand with
    | .constant _ => []
    | .indicator name => [(c.timeframe, name)]

def holds (c : IndicatorComparison) (snapshot : Snapshot) : Bool :=
  match snapshot.get? c.timeframe c.indicator, c.operand.value? snapshot c.timeframe with
  | some left, some right => c.comparison.holds left right
  | _, _ => false

def dump (c : IndicatorComparison) : String :=
  "IndicatorComparison " ++ Text.braced ("timeframe: " ++ c.timeframe.debugName
    ++ ", indicator: " ++ Text.quoted c.indicator ++ ", comparison: " ++ c.comparison.debugName
    ++ ", operand: " ++ c.operand.dump)

def toCondition (c : IndicatorComparison) : Condition :=
  ⟨c.name, c.references, c.holds, c.dump⟩

end IndicatorComparison

end FuturesDesk
