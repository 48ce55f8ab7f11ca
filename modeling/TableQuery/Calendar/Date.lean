import TableQuery.Number.Bounded

/-! # Dates

A date of the proleptic Gregorian calendar is its number of days from 1970-01-01. Years run from
-262143 to 262142. The calendar fields of a day number are found by walking down from 400-year
cycles that begin on the first of March, so that a leap day is the last day of its year.

Assumed of the calendar are its documented rules: which years have a leap day, also before the
calendar was introduced, a year zero before the first one, and the range of the years. -/

namespace TableQuery

/-- Whether a year has a leap day. -/
def isLeapYear (y : Int) : Bool := y % 4 = 0 && (y % 100 ≠ 0 || y % 400 = 0)

/-- The number of days in a month, counted from one. -/
def daysInMonth (y : Int) (m : Nat) : Nat :=
  if m = 2 then (if isLeapYear y then 29 else 28)
  else if m = 4 || m = 6 || m = 9 || m = 11 then 30
  else 31

/-- The day number of a year, month and day. -/
def dayNumber (y : Int) (m d : Nat) : Int :=
  let y := if m ≤ 2 then y - 1 else y
  let cycle := y / 400
  let yearOfCycle := y % 400
  let dayOfYear : Int := (153 * ((m + 9) % 12) + 2) / 5 + d - 1
  cycle * 146097 + (yearOfCycle * 365 + yearOfCycle / 4 - yearOfCycle / 100 + dayOfYear) - 719468

/-- The year, month and day of a day number. -/
def civilOfDay (day : Int) : Int × Nat × Nat :=
  let z := day + 719468
  let cycle := z / 146097
  let dayOfCycle := (z % 146097).toNat
  let yearOfCycle :=
    (dayOfCycle - dayOfCycle / 1460 + dayOfCycle / 36524 - dayOfCycle / 146096) / 365
  let dayOfYear := dayOfCycle - (365 * yearOfCycle + yearOfCycle / 4 - yearOfCycle / 100)
  let monthFromMarch := (5 * dayOfYear + 2) / 153
  let d := dayOfYear - (153 * monthFromMarch + 2) / 5 + 1
  let m := if monthFromMarch < 10 then monthFromMarch + 3 else monthFromMarch - 9
  (yearOfCycle + cycle * 400 + (if m ≤ 2 then 1 else 0), m, d)

/-- The day number of -262143-01-01. -/
abbrev minDay : Int := -96465292

/-- The day number of 262142-12-31. -/
abbrev maxDay : Int := 95026236

example : dayNumber (-262143) 1 1 = minDay := by decide
example : dayNumber 262142 12 31 = maxDay := by decide

/-- A date, as its number of days from 1970-01-01. -/
structure Date where
  day : Bounded minDay maxDay
  deriving DecidableEq

namespace Date

/-- The date with a day number, if the calendar reaches it. -/
def ofDay? (n : Int) : Option Date := (Bounded.ofInt? minDay maxDay n).map Date.mk

/-- The date with these calendar fields, if there is one. -/
def ofCivil? (y : Int) (m d : Nat) : Option Date :=
  if 1 ≤ m ∧ m ≤ 12 ∧ 1 ≤ d ∧ d ≤ daysInMonth y m then ofDay? (dayNumber y m d) else none

/-- The year, month and day of a date. -/
def civil (d : Date) : Int × Nat × Nat := civilOfDay d.day.val

/-- The date some months later (or earlier), on the last day of the month if that month is
shorter. -/
def addMonths? (date : Date) (months : Int) : Option Date :=
  let (y, m, d) := date.civil
  let total := y * 12 + m - 1 + months
  let y := total / 12
  let m := (total % 12).toNat + 1
  ofCivil? y m (min d (daysInMonth y m))

end Date

end TableQuery
