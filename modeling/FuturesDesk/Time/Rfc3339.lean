import FuturesDesk.Text.Blank
import FuturesDesk.Text.Digits
import FuturesDesk.Time.Calendar
import FuturesDesk.Time.Timestamp

/-! Date-times as text. Writing gives UTC with `Z` and as many fractional digits as the value needs,
by threes. Reading takes any offset, a letter or a blank between date and time, blanks between the
parts, and numbers without leading zeros. -/
namespace FuturesDesk.Rfc3339

open Text

def padded (width n : Nat) : String :=
  let digits := toString n
  String.ofList (List.replicate (width - digits.length) '0') ++ digits

/-- Four digits, or a sign and at least four digits outside the years 0 to 9999. -/
def yearText (year : Int) : String :=
  if 0 ≤ year ∧ year ≤ 9999 then padded 4 year.toNat
  else (if year < 0 then "-" else "+") ++ padded 4 year.natAbs

def fractionText (nanos : Nat) : String :=
  if nanos = 0 then ""
  else if nanos % 1_000_000 = 0 then "." ++ padded 3 (nanos / 1_000_000)
  else if nanos % 1000 = 0 then "." ++ padded 6 (nanos / 1000)
  else "." ++ padded 9 nanos

def render (t : Timestamp) : String :=
  let (year, month, day) := Calendar.dateOfDay (t.seconds / 86400)
  let secondOfDay := (t.seconds % 86400).toNat
  let leap := if 1_000_000_000 ≤ t.nanos then 1 else 0
  yearText year ++ "-" ++ padded 2 month ++ "-" ++ padded 2 day ++ "T"
    ++ padded 2 (secondOfDay / 3600) ++ ":" ++ padded 2 (secondOfDay / 60 % 60) ++ ":"
    ++ padded 2 (secondOfDay % 60 + leap) ++ fractionText (t.nanos % 1_000_000_000) ++ "Z"

/-- The value of one to `most` leading digits, and the rest. -/
def number? (most : Nat) (text : List Char) : Option (Nat × List Char) :=
  let digits := (text.take most).takeWhile Char.isDigit
  if digits.isEmpty then none
  else some (digitsValue digits, text.drop digits.length)

/-- A number of at most two digits after blanks. -/
def pair? (text : List Char) : Option (Nat × List Char) := number? 2 (skipBlanks text)

def literal? (c : Char) (text : List Char) : Option (List Char) :=
  match skipBlanks text with
  | head :: rest => if head = c then some rest else none
  | [] => none

/-- Four digits at most, or any number of digits after a sign. -/
def year? (text : List Char) : Option (Int × List Char) :=
  match skipBlanks text with
  | '-' :: rest => (number? rest.length rest).map fun (n, rest) => (-(n : Int), rest)
  | '+' :: rest => (number? rest.length rest).map fun (n, rest) => ((n : Int), rest)
  | text => (number? 4 text).map fun (n, rest) => ((n : Int), rest)

/-- Nanoseconds after a point; digits beyond the ninth are dropped. -/
def fraction? : List Char → Option (Nat × List Char)
  | '.' :: rest =>
    (number? 9 rest).map fun (n, after) =>
      (n * tenTo (9 - (rest.length - after.length)), after.dropWhile Char.isDigit)
  | text => some (0, text)

/-- Hours and minutes of an offset in seconds: two digits each, with colons or blanks between. -/
def hoursMinutes? (text : List Char) : Option (Int × List Char) := do
  let twoDigits? (text : List Char) : Option (Nat × List Char) :=
    (number? 2 text).bind fun (n, rest) =>
      if rest.length + 2 = text.length then some (n, rest) else none
  let (hours, text) ← twoDigits? text
  let (minutes, text) ← twoDigits? (text.dropWhile fun c => c = ':' || isBlank c)
  if minutes < 60 ∧ hours < 24 then some (hours * 3600 + minutes * 60, text) else none

/-- The offset from UTC in seconds. -/
def offset? (text : List Char) : Option (Int × List Char) :=
  match text with
  | 'Z' :: rest | 'z' :: rest => some (0, rest)
  | '+' :: rest => hoursMinutes? rest
  | '-' :: rest | '−' :: rest => (hoursMinutes? rest).map fun (s, rest) => (-s, rest)
  | a :: b :: c :: rest =>
    if [a, b, c].map Char.toUpper = ['U', 'T', 'C'] then some (0, rest) else none
  | _ => none

/-- The point in time that a text denotes. The second 60 is the leap second after 59. -/
def read? (text : String) : Option Timestamp := do
  let (year, text) ← year? text.toList
  let (month, text) ← pair? (← literal? '-' text)
  let (day, text) ← pair? (← literal? '-' text)
  let text ← match text with
    | 't' :: rest | 'T' :: rest | ' ' :: rest => some rest
    | _ => none
  let (hour, text) ← pair? text
  let (minute, text) ← pair? (← literal? ':' text)
  let (second, text) ← pair? (← literal? ':' text)
  let (nanos, text) ← fraction? text
  let (offset, text) ← offset? (skipBlanks text)
  if ¬ (skipBlanks text).isEmpty then failure
  if ¬ (Calendar.isDate year month day ∧ hour < 24 ∧ minute < 60 ∧ second ≤ 60) then failure
  let leap := second = 60
  let seconds := Calendar.dayNumber year month day * 86400
    + (hour * 3600 + minute * 60 + (if leap then 59 else second) : Nat) - offset
  let nanos := if leap then nanos + 1_000_000_000 else nanos
  if h : nanos < 2_000_000_000 then
    if Timestamp.firstSecond ≤ seconds ∧ seconds ≤ Timestamp.lastSecond then
      return ⟨seconds, nanos, h⟩
    else failure
  else failure

end FuturesDesk.Rfc3339
