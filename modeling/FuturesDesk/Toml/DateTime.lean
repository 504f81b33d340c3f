import FuturesDesk.Time.Calendar
import FuturesDesk.Toml.Text

/-! Dates and times in TOML, with or without an offset. They are read as texts of one form: a `T`
between date and time, a fraction of at most nine digits that does not end in a zero, `Z` in upper
case. -/
namespace FuturesDesk.Toml

/-- The number of so many digits, and the rest. -/
def fixed? (width : Nat) (text : List Char) : Option (Nat × List Char) :=
  let digits := text.take width
  if digits.length = width ∧ digits.all Char.isDigit then
    some (Text.digitsValue digits, text.drop width)
  else none

def after? (mark : Char) : List Char → Option (List Char)
  | [] => none
  | c :: rest => if c = mark then some rest else none

def date? (text : List Char) : Option (List Char × List Char) := do
  let (year, rest) ← fixed? 4 text
  let (month, rest) ← fixed? 2 (← after? '-' rest)
  let (day, rest) ← fixed? 2 (← after? '-' rest)
  if Calendar.isDate year month day then return (text.take 10, rest) else none

/-- Two numbers of two digits with a colon between them: hours and minutes. -/
def hourMinute? (text : List Char) : Option (List Char × List Char) := do
  let (hour, rest) ← fixed? 2 text
  let (minute, rest) ← fixed? 2 (← after? ':' rest)
  if hour < 24 ∧ minute < 60 then return (text.take 5, rest) else none

/-- Drops zeros at the end, and the point if nothing else is left. -/
def trimmedFraction (digits : List Char) : List Char :=
  match (digits.reverse.dropWhile (· = '0')).reverse with
  | [] => []
  | kept => '.' :: kept

/-- A time of day with seconds, of which the last may be a leap second. -/
def time? (text : List Char) : Option (List Char × List Char) := do
  let (_, rest) ← hourMinute? text
  let (second, rest) ← fixed? 2 (← after? ':' rest)
  if 60 < second then none
  let digits := ((after? '.' rest).getD []).takeWhile Char.isDigit
  if digits.isEmpty then return (text.take 8, rest)
  else return (text.take 8 ++ trimmedFraction (digits.take 9), rest.drop (digits.length + 1))

/-- The offset at the front of a text, if there is one. -/
def offset (text : List Char) : List Char × List Char :=
  match text with
  | 'Z' :: rest => (['Z'], rest)
  | 'z' :: rest => (['Z'], rest)
  | sign :: rest =>
    match hourMinute? rest with
    | some (distance, after) =>
      if sign = '+' ∨ (sign = '-' ∧ distance = "00:00".toList) then ('+' :: distance, after)
      else if sign = '-' then ('-' :: distance, after)
      else ([], text)
    | none => ([], text)
  | [] => ([], [])

/-- A date, a time, or both; only both together take an offset. -/
def dateTime? (text : List Char) : Option (String × List Char) :=
  match date? text with
  | some (date, rest) =>
    let timed := match rest with
      | c :: rest => if c = 'T' || c = 't' || c = ' ' then time? rest else none
      | [] => none
    match timed with
    | some (time, rest) =>
      let (offset, rest) := offset rest
      some (String.ofList (date ++ 'T' :: time ++ offset), rest)
    | none => some (String.ofList date, rest)
  | none => (time? text).map fun (time, rest) => (String.ofList time, rest)

end FuturesDesk.Toml
