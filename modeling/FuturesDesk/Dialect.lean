import FuturesDesk.Decimal.Reader

/-! What a data format offers to the readers of typed records. A reader is written once over a
dialect, so that one record can be read from every format; the dialect decides which conversions a
format allows. -/
namespace FuturesDesk

/-- The readable shapes of a format's values `V`. Each reader refuses what it cannot take. -/
structure Dialect (V : Type) where
  isNull : V → Bool
  bool? : V → Option Bool
  /-- A natural number of at most so many bits. -/
  unsigned? : Nat → V → Option Nat
  double? : V → Option Float
  string? : V → Option String
  decimal? : V → Option Decimal
  /-- One of some names. -/
  choice? : List String → V → Option String
  items? : V → Option (List V)
  /-- The members of a mapping in order. -/
  members? : V → Option (List (String × V))
  /-- Whether a record may be given with more items than fields. -/
  ignoresExtraItems : V → Bool
  /-- The reading of parts that take a value as it is written, without conversions. -/
  unconverted : V → V

namespace Dialect

variable {V : Type} {α : Type}

/-- A value that may be null. -/
def nullable? (d : Dialect V) (read : V → Option α) (value : V) : Option (Option α) :=
  if d.isNull value then some none else (read value).map some

/-- The fields that were given for a record, by name or by position. -/
structure Record (V : Type) where
  dialect : Dialect V
  positional : Bool
  fields : List (String × V)

/-- A record with the given field names: a mapping in which none of them is repeated, or the values
of the first fields in order. Other members are ignored. -/
def record? (d : Dialect V) (names : List String) (value : V) : Option (Record V) :=
  match d.members? value with
  | some members =>
    let known := members.filter fun m => names.contains m.1
    if known.map (·.1) |>.Nodup then some ⟨d, false, known⟩ else none
  | none =>
    match d.items? value with
    | some items =>
      if names.length < items.length ∧ ¬ d.ignoresExtraItems value then none
      else some ⟨d, true, names.zip items⟩
    | none => none

namespace Record

def field? (r : Record V) (name : String) : Option V :=
  (r.fields.find? fun f => f.1 = name).map (·.2)

/-- A field that has to be there. -/
def required (r : Record V) (name : String) (read : V → Option α) : Option α :=
  (r.field? name).bind read

/-- A field that may be null, and may be missing where fields have names. -/
def optional (r : Record V) (name : String) (read : V → Option α) : Option (Option α) :=
  match r.field? name with
  | some value => r.dialect.nullable? read value
  | none => if r.positional then none else some none

/-- A field with a value for its absence. -/
def withDefault (r : Record V) (name : String) (default : α) (read : V → Option α) : Option α :=
  match r.field? name with
  | some value => read value
  | none => some default

end Record

/-- A list whose items are all readable. -/
def list? (d : Dialect V) (read : V → Option α) (value : V) : Option (List α) :=
  (d.items? value).bind fun items => items.mapM read

end Dialect

end FuturesDesk
