import TableQuery.Calendar.Date
import TableQuery.Number.Decimal

/-! # Times of day and timestamps

A time of day is a number of nanoseconds since midnight, and a timestamp a number of nanoseconds
since the start of 1970-01-01, so that shifting a timestamp by a fixed length is an addition. The
texts write the fewest of no, three, six or nine places of a second that are exact.

Assumed is the arithmetic that is documented for dates and times without a zone. The calendar is the
proleptic Gregorian one, every day has 86400 seconds, a leap second being no instant of its own, and
differences and shifts by fixed lengths are exact to the nanosecond. A shift that leaves the
calendar has no result. -/

namespace TableQuery

abbrev nanosPerSecond : Nat := 1000000000

abbrev nanosPerDay : Nat := 86400000000000

/-- The first and the last instant of the calendar. -/
abbrev minInstant : Int := -8334601228800000000000

abbrev maxInstant : Int := 8210266876799999999999

example : minInstant = minDay * nanosPerDay := by decide
example : maxInstant = (maxDay + 1) * nanosPerDay - 1 := by decide

/-- A time of day, as its nanoseconds since midnight. -/
structure TimeOfDay where
  nanos : Fin nanosPerDay
  deriving DecidableEq

/-- A calendar date with a time of day, as its nanoseconds since the start of 1970-01-01. -/
structure Timestamp where
  instant : Bounded minInstant maxInstant
  deriving DecidableEq

namespace TimeOfDay

/-- The time with these clock fields, if the clock shows it. -/
def ofClock? (h m s nanos : Nat) : Option TimeOfDay :=
  if h < 24 ∧ m < 60 ∧ s < 60 ∧ nanos < nanosPerSecond then
    let n := ((h * 60 + m) * 60 + s) * nanosPerSecond + nanos
    if lt : n < nanosPerDay then some ⟨n, lt⟩ else none
  else none

/-- The hours, minutes, seconds and nanoseconds. -/
def clock (t : TimeOfDay) : Nat × Nat × Nat × Nat :=
  let s := t.nanos.val / nanosPerSecond
  (s / 3600, s / 60 % 60, s % 60, t.nanos.val % nanosPerSecond)

/-- The places of a second: none, thousandths, millionths or billionths. -/
def fractionText (nanos : Nat) : String :=
  if nanos = 0 then ""
  else if nanos % 1000000 = 0 then "." ++ padZeros 3 (toString (nanos / 1000000))
  else if nanos % 1000 = 0 then "." ++ padZeros 6 (toString (nanos / 1000))
  else "." ++ padZeros 9 (toString nanos)

def text (t : TimeOfDay) : String :=
  let (h, m, s, nanos) := t.clock
  padZeros 2 (toString h) ++ ":" ++ padZeros 2 (toString m) ++ ":" ++ padZeros 2 (toString s) ++
    fractionText nanos

end TimeOfDay

namespace Date

/-- Years of four digits stand as they are, all others have a sign. -/
def text (d : Date) : String :=
  let (y, m, day) := d.civil
  let digits := padZeros 4 (toString y.natAbs)
  let year := if 0 ≤ y ∧ y ≤ 9999 then digits else (if y < 0 then "-" else "+") ++ digits
  year ++ "-" ++ padZeros 2 (toString m) ++ "-" ++ padZeros 2 (toString day)

end Date

namespace Timestamp

/-- The timestamp at this instant, if the calendar reaches it. -/
def ofInstant? (n : Int) : Option Timestamp :=
  (Bounded.ofInt? minInstant maxInstant n).map Timestamp.mk

/-- The date a timestamp falls on. -/
def date (t : Timestamp) : Date :=
  ⟨⟨t.instant.val / 86400000000000,
    by have := t.instant.lo_le; unfold minInstant at this; unfold minDay; omega,
    by have := t.instant.le_hi; unfold maxInstant at this; unfold maxDay; omega⟩⟩

/-- The time of day of a timestamp. -/
def time (t : Timestamp) : TimeOfDay :=
  ⟨⟨(t.instant.val % 86400000000000).toNat, by unfold nanosPerDay; omega⟩⟩

/-- The timestamp of a date and a time of day. -/
def ofParts (d : Date) (t : TimeOfDay) : Timestamp :=
  ⟨⟨d.day.val * 86400000000000 + t.nanos.val,
    by have := d.day.lo_le; unfold minDay minInstant at *; omega,
    by have := d.day.le_hi; have := t.nanos.isLt; unfold maxDay maxInstant nanosPerDay at *; omega⟩⟩

/-- The start of a date. -/
def ofDate (d : Date) : Timestamp :=
  ofParts d ⟨⟨0, by decide⟩⟩

@[simp] theorem date_ofParts (d : Date) (t : TimeOfDay) : (ofParts d t).date = d := by
  obtain ⟨⟨n, h1, h2⟩⟩ := d
  obtain ⟨⟨k, hk⟩⟩ := t
  simp only [date, ofParts, Date.mk.injEq, Bounded.mk.injEq]
  unfold nanosPerDay at hk
  omega

@[simp] theorem time_ofParts (d : Date) (t : TimeOfDay) : (ofParts d t).time = t := by
  obtain ⟨⟨n, h1, h2⟩⟩ := d
  obtain ⟨⟨k, hk⟩⟩ := t
  simp only [time, ofParts, TimeOfDay.mk.injEq, Fin.mk.injEq]
  unfold nanosPerDay at hk
  omega

/-- The timestamp some months later (or earlier) at the same time of day. -/
def addMonths? (t : Timestamp) (months : Int) : Option Timestamp :=
  (t.date.addMonths? months).map (ofParts · t.time)

/-- The timestamp some nanoseconds later (or earlier). -/
def addNanos? (t : Timestamp) (nanos : Int) : Option Timestamp :=
  ofInstant? (t.instant.val + nanos)

def text (t : Timestamp) : String := t.date.text ++ " " ++ t.time.text

end Timestamp

end TableQuery
