/-! Numbers in decimal digits. -/
namespace FuturesDesk.Text

/-- What a digit counts. -/
def digitValue (c : Char) : Nat := c.toNat - '0'.toNat

def digitsValue (digits : List Char) : Nat := digits.foldl (fun n c => n * 10 + digitValue c) 0

/-- The number that a text of nothing but digits denotes. -/
def natural? (text : List Char) : Option Nat :=
  if ¬ text.isEmpty ∧ text.all Char.isDigit then some (digitsValue text) else none

/-- A whole number with or without a sign. -/
def whole? (text : List Char) : Option Int :=
  match text with
  | '-' :: digits => (natural? digits).map fun n => -(n : Int)
  | '+' :: digits => (natural? digits).map fun n => (n : Int)
  | digits => (natural? digits).map fun n => (n : Int)

end FuturesDesk.Text
