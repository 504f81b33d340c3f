import FuturesDesk.Binary64.Rounding

/-! JSON values. A number written without a fraction and an exponent is a whole number when it fits
64 bits, and a double otherwise. -/
namespace FuturesDesk

inductive Json where
  | null
  | bool (value : Bool)
  /-- A whole number, from `-2 ^ 63` to `2 ^ 64 - 1`. -/
  | whole (value : Int)
  | double (value : Float)
  | string (value : String)
  | array (items : List Json)
  | object (members : List (String × Json))
  /-- A well-formed value that none of the others can hold. It can only be passed over. -/
  | beyond
  deriving Inhabited

namespace Json

/-- The value of a member of an object; of members with one name the last counts. -/
def get? (name : String) : Json → Option Json
  | object members => (members.reverse.find? fun m => m.1 = name).map (·.2)
  | _ => none

/-- The element of an array at an index. -/
def at? (index : Nat) : Json → Option Json
  | array items => items[index]?
  | _ => none

def isNull : Json → Bool
  | null => true
  | _ => false

def asString? : Json → Option String
  | string s => some s
  | _ => none

def asBool? : Json → Option Bool
  | bool b => some b
  | _ => none

def asWhole? : Json → Option Int
  | whole n => some n
  | _ => none

def asArray? : Json → Option (List Json)
  | array items => some items
  | _ => none

def asObject? : Json → Option (List (String × Json))
  | object members => some members
  | _ => none

mutual

/-- Whether a value can be held in all of its parts. -/
def isComplete : Json → Bool
  | beyond => false
  | array items => areComplete items
  | object members => haveCompleteValues members
  | _ => true

def areComplete : List Json → Bool
  | [] => true
  | item :: rest => isComplete item && areComplete rest

def haveCompleteValues : List (String × Json) → Bool
  | [] => true
  | (_, item) :: rest => isComplete item && haveCompleteValues rest

end

/-- Any number as a double. -/
def asDouble? : Json → Option Float
  | double x => some x
  | whole n =>
    let x := Binary64.ofNat n.natAbs
    some (if n < 0 then -x else x)
  | _ => none

end Json

end FuturesDesk
