import FuturesDesk.Json.Basic
import FuturesDesk.Keyed
import FuturesDesk.Toml.Text

/-! The tables of a TOML document while it is read. How a table came to be decides what may still be
added to it. -/
namespace FuturesDesk.Toml

inductive Origin where
  /-- On the way to a table with a header. -/
  | implied
  /-- By a key with dots. -/
  | dotted
  /-- By a header of its own. -/
  | headed
  deriving DecidableEq, Repr

inductive Node where
  | value (value : Json)
  | table (origin : Origin) (entries : List (String × Node))
  /-- The tables of repeated headers, the last one first. -/
  | tables (items : List (List (String × Node)))

abbrev Entries : Type := List (String × Node)

mutual

def Node.toJson : Node → Json
  | .value v => v
  | .table _ entries => .object (membersOf entries)
  | .tables items => .array (itemsOf items)

def membersOf : Entries → List (String × Json)
  | [] => []
  | (name, node) :: rest => (name, node.toJson) :: membersOf rest

def itemsOf : List Entries → List Json
  | [] => []
  | entries :: earlier => itemsOf earlier ++ [.object (membersOf entries)]

end

/-- A change of a table that may be refused. -/
abbrev Change : Type := Origin → Entries → Option Entries

/-- Changes the table at the end of a path, making tables that are missing on the way. The path of a
key may not pass through tables that have a header. -/
def changeAt (byKey : Bool) (change : Change) : List String → Change
  | [], origin, entries => change origin entries
  | name :: path, _, entries =>
    match Keyed.find? name entries with
    | none =>
      let origin : Origin := if byKey then .dotted else .implied
      (changeAt byKey change path origin []).map fun inner =>
        Keyed.put name (.table origin inner) entries
    | some (.table origin inner) =>
      if byKey ∧ origin = .headed then none
      else
        (changeAt byKey change path origin inner).map fun inner =>
          Keyed.put name (.table origin inner) entries
    | some (.tables (last :: earlier)) =>
      (changeAt byKey change path .headed last).map fun last =>
        Keyed.put name (.tables (last :: earlier)) entries
    | some _ => none

/-- Adds a value under a new name. Keys with dots fill the tables that such keys made, and only
those. -/
def addValue (byDots : Bool) (name : String) (value : Json) : Change := fun origin entries =>
  if (byDots ↔ origin = .dotted) ∧ (Keyed.find? name entries).isNone then
    some (Keyed.put name (.value value) entries)
  else none

/-- Sets a key of a table. -/
def assign (key : Key) (value : Json) : Change :=
  changeAt true (addValue (!key.path.isEmpty) key.name value) key.path

/-- Opens the table of a header, which has not been opened before. -/
def openTable (name : String) : Change := fun _ entries =>
  match Keyed.find? name entries with
  | none => some (Keyed.put name (.table .headed []) entries)
  | some (.table .implied inner) => some (Keyed.put name (.table .headed inner) entries)
  | some _ => none

/-- Opens one more table of a repeated header. -/
def openItem (name : String) : Change := fun _ entries =>
  match Keyed.find? name entries with
  | none => some (Keyed.put name (.tables [[]]) entries)
  | some (.tables items) => some (Keyed.put name (.tables ([] :: items)) entries)
  | some _ => none

end FuturesDesk.Toml
