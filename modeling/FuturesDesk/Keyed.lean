/-! Lists of keyed entries, one for each key, in the order in which the keys came. -/
namespace FuturesDesk.Keyed

variable {κ ν : Type} [DecidableEq κ]

def find? (key : κ) : List (κ × ν) → Option ν
  | [] => none
  | (k, v) :: rest => if k = key then some v else find? key rest

/-- Replaces the entry of a key or adds one at the end. -/
def put (key : κ) (value : ν) : List (κ × ν) → List (κ × ν)
  | [] => [(key, value)]
  | (k, v) :: rest => if k = key then (key, value) :: rest else (k, v) :: put key value rest

def remove (key : κ) (entries : List (κ × ν)) : List (κ × ν) := entries.filter (·.1 ≠ key)

theorem find?_put (key other : κ) (value : ν) (entries : List (κ × ν)) :
    find? other (put key value entries) =
      if key = other then some value else find? other entries := by
  induction entries with
  | nil => simp [put, find?]
  | cons entry rest ih => grind [put, find?]

theorem find?_remove (key other : κ) (entries : List (κ × ν)) :
    find? other (remove key entries) = if key = other then none else find? other entries := by
  induction entries with
  | nil => simp [remove, find?]
  | cons entry rest ih => grind [remove, find?]

end FuturesDesk.Keyed
