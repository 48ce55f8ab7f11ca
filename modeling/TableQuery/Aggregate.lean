import TableQuery.Scalar.Arith
import TableQuery.Scalar.Compare
import TableQuery.Scalar.Key

/-! # Running aggregates

The state of an aggregate over the values seen so far. A state is updated value by value and its
result can be read at any time. Nulls are skipped, except that counting rows counts them too.
Booleans are added up and averaged as zero and one. -/

namespace TableQuery

/-- A count as a value. -/
def Scalar.ofCount (n : Nat) : Scalar :=
  match IntType.int64.ofInt? n with
  | some b => .int .int64 b
  | none => .null

/-- What has been seen so far. -/
inductive AggregateState where
  | count (n : Nat)
  /-- The different keys, the latest first. -/
  | distinct (keys : List Key)
  /-- The sum in the type of the aggregate, null before the first value. -/
  | sum (total : Scalar)
  | mean (total : FloatValue) (n : Nat)
  | min (least : Scalar)
  | max (greatest : Scalar)

namespace AggregateState

/-- The state before any value. -/
def initial : AggregateFunction → AggregateState
  | .countStar | .count => count 0
  | .countDistinct => distinct []
  | .sum => sum .null
  | .mean => mean (.finite false 0) 0
  | .min => min .null
  | .max => max .null

/-- A boolean as zero or one, any other value as it is. -/
def asNumber : Scalar → Scalar
  | .boolean b => .int .int64 (if b then ⟨1, by decide, by decide⟩ else ⟨0, by decide, by decide⟩)
  | v => v

/-- The state after one more value that is not null; `t` is the type of the aggregate. -/
def add (state : AggregateState) (v : Scalar) (t : DataType) : Result AggregateState :=
  match state with
  | count n => .ok (count (n + 1))
  | distinct keys => .ok (distinct (if v.key ∈ keys then keys else v.key :: keys))
  | sum total =>
    (if total.isNull then (asNumber v).cast t else Scalar.arith .add total (asNumber v) t).map sum
  | mean total n => (asNumber v).asDouble.map fun x => mean (double.add total x) (n + 1)
  | min least =>
    .ok (min (if least.isNull || v.compare? least = some .lt then v else least))
  | max greatest =>
    .ok (max (if greatest.isNull || v.compare? greatest = some .gt then v else greatest))

/-- The state after one more row, in which the aggregate's input has the given value. -/
def update (state : AggregateState) (f : AggregateFunction) (v : Scalar) (t : DataType) :
    Result AggregateState :=
  match f, state with
  | .countStar, count n => .ok (count (n + 1))
  | .countStar, state => .ok state
  | _, state => if v.isNull then .ok state else state.add v t

/-- The aggregate of what has been seen so far. -/
def result : AggregateState → Scalar
  | count n => Scalar.ofCount n
  | distinct keys => Scalar.ofCount keys.length
  | sum v | min v | max v => v
  | mean total n => if n = 0 then .null else .ofDouble (double.div total (double.ofInt n))

end AggregateState

end TableQuery
