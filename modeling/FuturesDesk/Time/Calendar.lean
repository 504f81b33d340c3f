/-! The proleptic Gregorian calendar: days since 1970-01-01 from a date and back. Years are counted
from March, so that the leap day comes last. -/
namespace FuturesDesk.Calendar

def isLeapYear (year : Int) : Bool :=
  year % 4 = 0 ∧ (year % 100 ≠ 0 ∨ year % 400 = 0)

def daysInMonth (year : Int) (month : Nat) : Nat :=
  if month = 2 then if isLeapYear year then 29 else 28
  else if month = 4 ∨ month = 6 ∨ month = 9 ∨ month = 11 then 30
  else 31

def isDate (year : Int) (month day : Nat) : Bool :=
  1 ≤ month ∧ month ≤ 12 ∧ 1 ≤ day ∧ day ≤ daysInMonth year month

/-- Days from 0000-03-01 to the first of March of a year. -/
def daysBeforeYear (year : Int) : Int := 365 * year + year / 4 - year / 100 + year / 400

/-- Days from the first of March to the first of the `n`-th month after March. -/
def daysBeforeMonth (n : Nat) : Nat := (153 * n + 2) / 5

/-- From 0000-03-01 to 1970-01-01. -/
def epochDay : Int := 719468

def dayNumber (year : Int) (month day : Nat) : Int :=
  let marchYear := if month ≤ 2 then year - 1 else year
  daysBeforeYear marchYear + daysBeforeMonth ((month + 9) % 12) + (day - 1 : Nat) - epochDay

/-- The year, month and day of a day number. -/
def dateOfDay (dayNumber : Int) : Int × Nat × Nat :=
  let day := dayNumber + epochDay
  let era := day / 146097
  let dayOfEra := (day % 146097).toNat
  let yearOfEra := (dayOfEra - dayOfEra / 1460 + dayOfEra / 36524 - dayOfEra / 146096) / 365
  let dayOfYear := dayOfEra - (365 * yearOfEra + yearOfEra / 4 - yearOfEra / 100)
  let monthFromMarch := (5 * dayOfYear + 2) / 153
  let month := (monthFromMarch + 2) % 12 + 1
  let year := era * 400 + yearOfEra + if month ≤ 2 then 1 else 0
  (year, month, dayOfYear - daysBeforeMonth monthFromMarch + 1)

end FuturesDesk.Calendar
