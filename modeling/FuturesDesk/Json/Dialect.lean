import FuturesDesk.Binary64.Text
import FuturesDesk.Dialect
import FuturesDesk.Json.Basic

/-! JSON as a dialect: nothing is converted, except that a decimal may be a number, which goes by
its shortest text without an exponent. -/
namespace FuturesDesk.Json

def decimal? : Json → Option Decimal
  | whole n => Decimal.ofParts? n 0
  | double x => Decimal.ofText? (Binary64.plainText x)
  | string s => Decimal.ofText? s
  | _ => none

/-- A name is a string, or an object whose only member has that name and is null. -/
def choice? (names : List String) : Json → Option String
  | string s => if names.contains s then some s else none
  | object [(name, null)] => if names.contains name then some name else none
  | _ => none

def unsigned? (bits : Nat) : Json → Option Nat
  | whole n => if 0 ≤ n ∧ n < twoTo bits then some n.toNat else none
  | _ => none

def dialect : Dialect Json where
  isNull := isNull
  bool? := asBool?
  unsigned? := unsigned?
  double? := asDouble?
  string? := asString?
  decimal? := decimal?
  choice? := choice?
  items? := asArray?
  members? := asObject?
  ignoresExtraItems := fun _ => false
  unconverted := id

end FuturesDesk.Json
