import TableQuery.DataType.Basic
import TableQuery.Calendar.Timestamp

/-! # Values

A `Scalar` is one value of a column: null, a number of some width, a text, a date and so on, or a
list or struct of values. Integers carry their width and are within its bounds; floating point
values are bit patterns. `Scalar.equal` is the equality of values of one variant, under which NaN
differs from itself. -/

namespace TableQuery

/-- A single value. -/
inductive Scalar where
  | null
  | boolean (b : Bool)
  | int (t : IntType) (v : t.Value)
  | float (t : FloatType) (v : t.Value)
  | decimal (d : Decimal)
  | utf8 (s : String)
  | binary (bytes : List UInt8)
  | date (d : Date)
  | time (t : TimeOfDay)
  /-- An instant, in UTC when it has a zone. -/
  | timestamp (t : Timestamp) (zone : Option String)
  | interval (iv : Interval)
  | list (values : List Scalar)
  | struct (fields : List (String × Scalar))

/-- The values of one row, in column order. -/
abbrev Row := List Scalar

namespace Scalar

instance : Inhabited Scalar := ⟨null⟩

def isNull : Scalar → Bool
  | null => true
  | _ => false

@[simp] theorem isNull_iff {v : Scalar} : v.isNull = true ↔ v = null := by
  cases v <;> simp [isNull]

/-- The integer in an integer value. -/
def int? : Scalar → Option Int
  | int _ v => some v.val
  | _ => none

/-- The number in a numeric value, as the nearest 64-bit floating point value. -/
def double? : Scalar → Option FloatValue
  | int _ v => some (double.ofInt v.val)
  | float t v => some (t.toDouble v)
  | decimal d => some d.toDouble
  | _ => none

/-- A 64-bit floating point value. -/
def ofDouble (x : FloatValue) : Scalar := float .float64 (FloatType.float64.encode x)

mutual

/-- Equality of values of the same variant and width. -/
def equal : Scalar → Scalar → Bool
  | .null, .null => true
  | .boolean a, .boolean b => a == b
  | .int s a, .int t b => s == t && a.val == b.val
  | .float s a, .float t b => s == t && (s.decode a).equal (t.decode b)
  | .decimal a, .decimal b => a == b
  | .utf8 a, .utf8 b => a == b
  | .binary a, .binary b => a == b
  | .date a, .date b => a == b
  | .time a, .time b => a == b
  | .timestamp a x, .timestamp b y => a == b && x == y
  | .interval a, .interval b => a == b
  | .list a, .list b => equalAll a b
  | .struct a, .struct b => equalFields a b
  | _, _ => false

def equalAll : List Scalar → List Scalar → Bool
  | [], [] => true
  | a :: r, b :: s => equal a b && equalAll r s
  | _, _ => false

def equalFields : List (String × Scalar) → List (String × Scalar) → Bool
  | [], [] => true
  | (x, a) :: r, (y, b) :: s => x == y && equal a b && equalFields r s
  | _, _ => false

end

end Scalar

end TableQuery
