import FuturesDesk.Binary64.Reader
import FuturesDesk.Json.Dialect

/-! Settings as a dialect. Values of the environment have no types of their own, so that flags,
numbers and texts stand for each other where they can. -/
namespace FuturesDesk

structure Setting where
  value : Json
  /-- Whether the value is taken as it is written. -/
  verbatim : Bool := false

namespace Setting

/-- What a word says of a flag. -/
def flagOfWord? (word : String) : Option Bool :=
  match Text.lowered word with
  | "true" | "on" | "yes" => some true
  | "false" | "off" | "no" => some false
  | _ => none

/-- A flag; numbers are true unless they are zero. -/
def flag? : Json → Option Bool
  | .bool b => some b
  | .whole n => some (n ≠ 0)
  | .double x => some (x != 0)
  | .string "1" => some true
  | .string "0" => some false
  | .string s => flagOfWord? s
  | _ => none

/-- A natural number: a fraction is rounded, half away from zero, and what is out of range goes to
its nearer end; flags are one and zero. -/
def natural? : Json → Option Nat
  | .bool b => some b.toNat
  | .whole n => if n < 0 then none else some n.toNat
  | .double x => some x.round.toUInt64.toNat
  | .string s =>
    match flagOfWord? s with
    | some b => some b.toNat
    | none =>
      match s.toList with
      | '+' :: digits => Text.natural? digits
      | digits => Text.natural? digits
  | _ => none

def text? : Json → Option String
  | .bool b => some (if b then "true" else "false")
  | .whole n => some (toString n)
  | .double x => some (Binary64.plainText x)
  | .string s => some s
  | _ => none

/-- A name in any case: a text, or the only name in a table. -/
def choice? (names : List String) (value : Json) : Option String :=
  let find? (word : String) : Option String :=
    names.find? fun name => Text.lowered name = Text.lowered word
  match value with
  | .string s => find? s
  | .object [(name, _)] => find? name
  | _ => none

/-- A value by one reader where it is converted, and by another where it is taken as written. -/
def byForm {α : Type} (converted written : Json → Option α) (s : Setting) : Option α :=
  if s.verbatim then written s.value else converted s.value

def dialect : Dialect Setting where
  isNull := fun s => s.value.isNull
  bool? := byForm flag? Json.asBool?
  unsigned? := fun bits =>
    byForm (fun v => (natural? v).filter (· < twoTo bits)) (Json.unsigned? bits)
  double? := fun s => s.value.asDouble?
  string? := byForm text? Json.asString?
  decimal? := fun s => s.value.decimal?
  choice? := fun names => byForm (choice? names) (Json.choice? names)
  items? := fun s => s.value.asArray?.map fun items => items.map fun v => { s with value := v }
  members? := fun s =>
    s.value.asObject?.map fun members => members.map fun (name, v) => (name, { s with value := v })
  ignoresExtraItems := fun s => ¬ s.verbatim
  unconverted := fun s => { s with verbatim := true }

end Setting

end FuturesDesk
