import TableQuery.Number.IntType

/-! # Intervals

An interval counts one unit. Weeks and everything finer have a fixed length in nanoseconds;
months, quarters and years have a length in months only. No interval mixes the two. -/

namespace TableQuery

/-- The units of intervals, from the coarsest to the finest. -/
inductive IntervalUnit where
  | year | quarter | month | week | day | hour | minute | second
  | millisecond | microsecond | nanosecond
  deriving DecidableEq

namespace IntervalUnit

def all : List IntervalUnit :=
  [year, quarter, month, week, day, hour, minute, second, millisecond, microsecond, nanosecond]

/-- The place in the order from the coarsest unit to the finest. -/
def rank : IntervalUnit → Nat
  | year => 0 | quarter => 1 | month => 2 | week => 3 | day => 4 | hour => 5 | minute => 6
  | second => 7 | millisecond => 8 | microsecond => 9 | nanosecond => 10

/-- The finer of two units. -/
def finest (a b : IntervalUnit) : IntervalUnit := if a.rank ≤ b.rank then b else a

/-- The short form, which is how types and values write a unit. -/
def short : IntervalUnit → String
  | year => "Y" | quarter => "Q" | month => "M" | week => "W" | day => "D" | hour => "h"
  | minute => "m" | second => "s" | millisecond => "ms" | microsecond => "us" | nanosecond => "ns"

/-- The singular word for a unit. -/
def word : IntervalUnit → String
  | year => "year" | quarter => "quarter" | month => "month" | week => "week" | day => "day"
  | hour => "hour" | minute => "minute" | second => "second" | millisecond => "millisecond"
  | microsecond => "microsecond" | nanosecond => "nanosecond"

/-- The word in capitals, as in SQL literals. -/
def sqlName (u : IntervalUnit) : String := u.word.toUpper

/-- The word with a capital letter, as in the JSON form of types. -/
def title (u : IntervalUnit) : String := u.word.capitalize

/-- A unit by its short form, its word or the plural of its word. -/
def ofText? (s : String) : Option IntervalUnit :=
  all.find? fun u => s == u.short || s == u.word || s == u.word ++ "s"

/-- Short forms are told apart by case: a minute is no month. -/
theorem ofText?_short (u : IntervalUnit) : ofText? u.short = some u := by cases u <;> decide

/-- The nanoseconds in a unit of fixed length. -/
def nanos? : IntervalUnit → Option Int
  | year | quarter | month => none
  | week => some (7 * 86400000000000)
  | day => some 86400000000000
  | hour => some 3600000000000
  | minute => some 60000000000
  | second => some 1000000000
  | millisecond => some 1000000
  | microsecond => some 1000
  | nanosecond => some 1

/-- The months in a calendar unit. -/
def months? : IntervalUnit → Option Int
  | year => some 12
  | quarter => some 3
  | month => some 1
  | _ => none

end IntervalUnit

/-- A 64-bit number of units. -/
structure Interval where
  count : Int64Value
  unit : IntervalUnit
  deriving DecidableEq

namespace Interval

/-- The length in nanoseconds, if the unit has a fixed length and the total fits 64 bits. -/
def nanos? (iv : Interval) : Option Int64Value := do
  let per ← iv.unit.nanos?
  IntType.int64.ofInt? (iv.count.val * per)

/-- The interval of a number of nanoseconds, in the coarsest unit from days to microseconds that
counts it exactly, else in nanoseconds. -/
def ofNanos (n : Int64Value) : Interval :=
  let units : List IntervalUnit := [.day, .hour, .minute, .second, .millisecond, .microsecond]
  let exact := units.findSome? fun u => do
    let per ← u.nanos?
    if n.val % per = 0 then
      (IntType.int64.ofInt? (n.val / per)).map fun c => (⟨c, u⟩ : Interval)
    else none
  exact.getD ⟨n, .nanosecond⟩

/-- The interval of a signed length; a length whose nanoseconds do not fit 64 bits counts as the
greatest that does. -/
def ofDuration (nanos : Int) : Interval :=
  ofNanos ((IntType.int64.ofInt? nanos).getD ⟨IntType.int64.hi, by decide, by decide⟩)

def text (iv : Interval) : String := toString iv.count.val ++ " " ++ iv.unit.short

end Interval

end TableQuery
