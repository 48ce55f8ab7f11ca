import TableQuery.Scalar.Access
import TableQuery.Expr.OperatorType

/-! # Arithmetic on values

Operations on values are computed exactly and then brought to the type of the operation: an
integer or decimal that does not fit is an error, a floating point result is rounded. Division and
remainder by an exact zero give null. A null operand gives null. -/

namespace TableQuery

-- Powers are those of the core library, also where other instances are in scope.
attribute [local instance (2000)] instPowNat

namespace Scalar

/-- A 64-bit result as a value of a floating point type. -/
def ofDoubleAs (t : FloatType) (x : FloatValue) : Scalar := float t (t.ofDouble x)

/-- An exact integer as a value of an integer type. -/
def ofIntAs (t : IntType) (nullable : Bool) (v : Int) : Result Scalar :=
  match t.ofInt? v with
  | some b => .ok (int t b)
  | none => .error (.eval (.integerOutOfRange v (.base (.int t) nullable)))

/-! ### Numbers -/

/-- The operation on 64-bit floating point values. -/
def floatOp : ArithOp → FloatValue → FloatValue → FloatValue
  | .add => double.add
  | .sub => double.sub
  | .mul => double.mul
  | .div => double.div
  | .mod => FloatValue.rem

/-- What an operation on two exact numbers comes to. -/
inductive ExactResult where
  | value (v : Int)
  | divisionByZero
  | overflow

namespace ExactResult

/-- A result that has to fit 128 bits. -/
def ofInt (v : Int) : ExactResult := if (Int128.ofInt? v).isSome then value v else overflow

end ExactResult

/-- The operation on unscaled integers of one scale. A product is brought back to the scale by
truncation; the dividend of a division is scaled up first. -/
def exactOp (op : ArithOp) (scale : Nat) (a b : Int) : ExactResult :=
  match op with
  | .add => .ofInt (a + b)
  | .sub => .ofInt (a - b)
  | .mul =>
    match ExactResult.ofInt (a * b) with
    | .value v => .value (v.tdiv (10 ^ scale))
    | r => r
  | .div =>
    if b = 0 then .divisionByZero
    else
      match ExactResult.ofInt (a * 10 ^ scale) with
      | .value v => .ofInt (v.tdiv b)
      | r => r
  | .mod =>
    if b = 0 then .divisionByZero
    else
      match ExactResult.ofInt (a.tdiv b) with
      | .value _ => .value (a.tmod b)
      | r => r

/-- The unscaled integer of an integer or decimal at a scale. Digits beyond the scale are cut off,
and a value that grows beyond 128 bits is an error. -/
def unscaledAt (scale : Nat) (v : Scalar) : Result Int := do
  let (raw, places) ← match v with
    | decimal d => pure (d.unscaled.val, d.scale)
    | v => do pure (← v.asInt, 0)
  if places ≤ scale then
    match Int128.ofInt? (raw * 10 ^ (scale - places)) with
    | some b => return b.val
    | none => .error (.eval (.tooLarge .decimal))
  else return raw.tdiv (10 ^ (places - scale))

/-- A decimal of a scale, which an exact result of a 128-bit operation always is. -/
def ofUnscaled (op : ArithOp) (a b : Scalar) (scale : Nat) (v : Int) : Result Scalar :=
  match Int128.ofInt? v with
  | some n => .ok (decimal ⟨n, scale⟩)
  | none => .error (.eval (.overflow op a b))

/-! ### Intervals -/

/-- The interval's count in another unit, truncated. Calendar units and units of fixed length do
not convert into each other. -/
def countIn (unit : IntervalUnit) (iv : Interval) : Result Int64Value :=
  if iv.unit = unit then .ok iv.count
  else
    let convert (num den : Int) : Result Int64Value :=
      match IntType.int64.ofInt? (iv.count.val * num) with
      | some total =>
        match IntType.int64.ofInt? (total.val.tdiv den) with
        | some n => .ok n
        | none => .error (.eval (.tooLarge .interval))
      | none => .error (.eval (.tooLarge .interval))
    match iv.unit.nanos?, unit.nanos? with
    | some num, some den => convert num den
    | none, none => convert (iv.unit.months?.getD 1) (unit.months?.getD 1)
    | _, _ => .error (.eval (.mixedIntervals iv unit))

/-- An operation whose result is an interval of the given unit: a difference of timestamps or of
dates, a sum or difference of intervals, or a multiple of one. -/
def intervalOp (op : ArithOp) (unit : IntervalUnit) (a b : Scalar) : Result Scalar := do
  let checked (v : Int) (e : EvalError) : Result Scalar :=
    match IntType.int64.ofInt? v with
    | some n => .ok (interval ⟨n, unit⟩)
    | none => .error (.eval e)
  match op, a, b with
  | .sub, timestamp s _, timestamp t _ =>
    checked (s.instant.val - t.instant.val) (.tooLarge .timestampDifference)
  | .sub, date d, date e => checked (d.day.val - e.day.val) (.tooLarge .timestampDifference)
  | .add, interval i, interval j =>
    let m ← countIn unit i
    let n ← countIn unit j
    checked (m.val + n.val) (.overflow op a b)
  | .sub, interval i, interval j =>
    let m ← countIn unit i
    let n ← countIn unit j
    checked (m.val - n.val) (.overflow op a b)
  | .mul, interval i, v | .mul, v, interval i =>
    let n ← v.asInt64
    checked (i.count.val * n.val) (.overflow op a b)
  | _, _, _ => .error (.eval (.noIntervalResult op a b))

/-! ### Shifting dates and timestamps -/

/-- The timestamp shifted by an interval, forwards or backwards: by whole months for calendar
units, else by nanoseconds. The months or nanoseconds must fit 64 bits. -/
def shift (t : Timestamp) (iv : Interval) (backwards : Bool) : Result Timestamp :=
  let shifted := do
    let n ← if backwards then IntType.int64.ofInt? (-iv.count.val) else some iv.count
    match iv.unit.months? with
    | some per => do
      let months ← IntType.int64.ofInt? (n.val * per)
      t.addMonths? months.val
    | none => do
      let per ← iv.unit.nanos?
      let nanos ← IntType.int64.ofInt? (n.val * per)
      t.addNanos? nanos.val
  match shifted with
  | some u => .ok u
  | none => .error (.eval (.shiftOutOfRange t iv))

/-- An operation whose result is a date or timestamp. A date is shifted from its midnight, and the
part of a day that remains is dropped. -/
def temporalOp (op : ArithOp) (a b : Scalar) : Result Scalar :=
  match op, a, b with
  | .add, timestamp t zone, interval iv | .add, interval iv, timestamp t zone =>
    (shift t iv false).map (timestamp · zone)
  | .sub, timestamp t zone, interval iv => (shift t iv true).map (timestamp · zone)
  | .add, date d, interval iv | .add, interval iv, date d =>
    (shift (.ofDate d) iv false).map (date ·.date)
  | .sub, date d, interval iv => (shift (.ofDate d) iv true).map (date ·.date)
  | _, _, _ => .error (.eval (.noTemporalResult op a b))

/-! ### The operation of a type -/

/-- Arithmetic on two values, giving a value of the type of the operation. -/
def arith (op : ArithOp) (a b : Scalar) (t : DataType) : Result Scalar :=
  if a.isNull || b.isNull then .ok null
  else
    match t with
    | .base (.float w) _ => do
      let x ← a.asDouble
      let y ← b.asDouble
      return ofDoubleAs w (floatOp op x y)
    | .base (.int w) n => do
      let x ← a.asInt
      let y ← b.asInt
      match exactOp op 0 x y with
      | .value v => ofIntAs w n v
      | .divisionByZero => return null
      | .overflow => .error (.eval (.overflow op a b))
    | .base (.decimal _ scale) _ => do
      let x ← unscaledAt scale a
      let y ← unscaledAt scale b
      match exactOp op scale x y with
      | .value v => ofUnscaled op a b scale v
      | .divisionByZero => return null
      | .overflow => .error (.eval (.overflow op a b))
    | .base (.interval unit) _ => intervalOp op unit a b
    | .base (.timestamp _) _ | .base .date _ => temporalOp op a b
    | _ => .error (.eval (.noResult op a b t))

/-- A number or interval as a value of another type of its family, or of a wider one. -/
def cast (v : Scalar) (t : DataType) : Result Scalar :=
  if v.isNull then .ok null
  else
    match t with
    | .base (.float w) _ => v.asDouble.map (ofDoubleAs w)
    | .base (.int w) n => do ofIntAs w n (← v.asInt)
    | .base (.decimal _ scale) _ => do
      match Int128.ofInt? (← unscaledAt scale v) with
      | some n => return decimal ⟨n, scale⟩
      | none => .error (.eval (.tooLarge .decimal))
    | .base (.interval unit) _ =>
      match v with
      | interval iv => (countIn unit iv).map fun n => interval ⟨n, unit⟩
      | v => .error (.eval (.cannotCast v t))
    | t => .error (.eval (.cannotCast v t))

end Scalar

end TableQuery
