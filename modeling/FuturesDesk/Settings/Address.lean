import FuturesDesk.Json.Basic
import FuturesDesk.Keyed
import FuturesDesk.Text.Digits

/-! Places in a tree of settings, and values put there. A tree takes the shape that an address asks
for. -/
namespace FuturesDesk.Settings

/-- A name in the tree, a member of a table or an item of a list; an index below zero counts from
the end. -/
inductive Address where
  | name (name : String)
  | member (table : Address) (name : String)
  | item (list : Address) (index : Int)
  deriving DecidableEq, Repr

mutual

/-- A tree with a value under a name. Tables are laid over each other, all else is replaced. -/
def overlay (name : String) (value : Json) (tree : Json) : Json :=
  let members := tree.asObject?.getD []
  match value with
  | .object incoming =>
    let present := (Keyed.find? name members).getD (Json.object [])
    .object (Keyed.put name (overlayAll incoming present) members)
  | value => .object (Keyed.put name value members)

def overlayAll : List (String × Json) → Json → Json
  | [], tree => tree
  | (name, value) :: rest, tree => overlayAll rest (overlay name value tree)

end

/-- Changes an item of a list, which is filled up with empty tables as far as the item. -/
def changeItem (index : Int) (change : Json → Json) (items : List Json) : List Json :=
  let place := (if index < 0 then items.length + index else index).toNat
  (items ++ List.replicate (place + 1 - items.length) (Json.object [])).modify place change

namespace Address

/-- Changes what stands at an address, null if nothing does. -/
def change (f : Json → Json) : Address → Json → Json
  | name n, tree => within n tree
  | member table n, tree => table.change (within n) tree
  | item list index, tree =>
    list.change (fun present => .array (changeItem index f (present.asArray?.getD []))) tree
where
  within (name : String) (tree : Json) : Json :=
    let members := tree.asObject?.getD []
    .object (Keyed.put name (f ((Keyed.find? name members).getD .null)) members)

/-- Puts a value at an address. -/
def put (value : Json) : Address → Json → Json
  | name n, tree => overlay n value tree
  | member table n, tree => table.change (overlay n value) tree
  | item list index, tree => (item list index).change (fun _ => value) tree

def isNameChar (c : Char) : Bool := c.isAlphanum || c = ' ' || c = '_' || c = '-'

def name? (text : List Char) : Option (String × List Char) :=
  let name := text.takeWhile isNameChar
  if name.isEmpty then none else some (String.ofList name, text.drop name.length)

/-- A whole number between blanks up to a closing bracket. -/
def index? (text : List Char) : Option (Int × List Char) := do
  let skipBlanks (text : List Char) : List Char := text.dropWhile fun c => c = ' ' || c = '\t'
  let (negative, text) := match skipBlanks text with
    | '-' :: rest => (true, rest)
    | rest => (false, rest)
  let digits := text.takeWhile Char.isDigit
  let n : Int := Text.digitsValue digits
  let n := if negative then -n else n
  match skipBlanks (text.drop digits.length) with
  | ']' :: rest => if ¬ digits.isEmpty ∧ isWord64 n then some (n, rest) else none
  | _ => none

/-- The address that goes on from another one; each step takes a character, so `fuel` bounds their
number. -/
def steps? : Nat → Address → List Char → Option Address
  | 0, _, _ => none
  | _, a, [] => some a
  | fuel + 1, a, c :: rest =>
    if c = '.' then (name? rest).bind fun (n, rest) => steps? fuel (a.member n) rest
    else if c = '[' then (index? rest).bind fun (i, rest) => steps? fuel (a.item i) rest
    else none

/-- Names with points between them and indices in brackets; any other text is a name as a whole. -/
def ofText (text : String) : Address :=
  let found := (name? text.toList).bind fun (n, rest) => steps? rest.length.succ (name n) rest
  found.getD (name text)

end Address

end FuturesDesk.Settings
