import TableQuery.Scalar.Basic

/-! # Comparing values

`Scalar.compare?` is the order of values that comparison operators use. Null compares with
nothing, integers compare exactly, other pairs of numbers as 64-bit floating point values,
intervals by their length, lists element by element. `Scalar.sortOrder` completes it for sorting:
nulls come last and values that do not compare are taken as equal. -/

namespace TableQuery

/-- The lexicographic order of two lists of bytes. -/
def compareBytes : List UInt8 → List UInt8 → Ordering
  | [], [] => .eq
  | [], _ :: _ => .lt
  | _ :: _, [] => .gt
  | a :: r, b :: s => (Ord.compare a.toNat b.toNat).then (compareBytes r s)

/-- The order of texts by code points, which is also the order of their bytes. -/
def compareText (a b : String) : Ordering := if a < b then .lt else if a = b then .eq else .gt

namespace Scalar

mutual

/-- The order of two values, if they have one. -/
def compare? : Scalar → Scalar → Option Ordering
  | .int _ a, .int _ b => some (Ord.compare a.val b.val)
  | .boolean a, .boolean b => some (Ord.compare a b)
  | .utf8 a, .utf8 b => some (compareText a b)
  | .binary a, .binary b => some (compareBytes a b)
  | .date a, .date b => some (Ord.compare a.day.val b.day.val)
  | .time a, .time b => some (Ord.compare a.nanos b.nanos)
  | .timestamp a _, .timestamp b _ => some (Ord.compare a.instant.val b.instant.val)
  | .interval a, .interval b => do
    let m ← a.nanos?
    let n ← b.nanos?
    return Ord.compare m.val n.val
  | .list a, .list b => compareAll? a b
  | a, b => do
    let x ← a.double?
    let y ← b.double?
    x.compare? y

/-- Lists are compared at the first elements that differ, then by length. -/
def compareAll? : List Scalar → List Scalar → Option Ordering
  | [], [] => some .eq
  | [], _ :: _ => some .lt
  | _ :: _, [] => some .gt
  | a :: r, b :: s => do
    match ← compare? a b with
    | .eq => compareAll? r s
    | o => some o

end

/-- The order used for sorting. -/
def sortOrder : Scalar → Scalar → Ordering
  | .null, .null => .eq
  | .null, _ => .gt
  | _, .null => .lt
  | a, b => (a.compare? b).getD .eq

/-- A stable sort of values, nulls last. -/
def sort (values : List Scalar) : List Scalar :=
  values.mergeSort fun a b => (a.sortOrder b).isLE

end Scalar

end TableQuery
