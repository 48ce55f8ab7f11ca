import TableQuery.Error

/-! # Reading values

The native content of a value, or an error that shows the value. -/

namespace TableQuery

namespace Scalar

def asBool : Scalar → Result Bool
  | boolean b => .ok b
  | v => .error (.eval (.notBool v))

def asInt (v : Scalar) : Result Int :=
  match v.int? with
  | some n => .ok n
  | none => .error (.eval (.notInteger v))

def asInt64 (v : Scalar) : Result Int64Value := do
  let n ← v.asInt
  match IntType.int64.ofInt? n with
  | some b => return b
  | none => .error (.eval (.outOfRange64 true n))

def asUInt64 (v : Scalar) : Result (IntType.Value .uint64) := do
  let n ← v.asInt
  match IntType.uint64.ofInt? n with
  | some b => return b
  | none => .error (.eval (.outOfRange64 false n))

/-- A number as a 64-bit floating point value. -/
def asDouble (v : Scalar) : Result FloatValue :=
  match v.double? with
  | some x => .ok x
  | none => .error (.eval (.notInteger v))

def asText : Scalar → Result String
  | utf8 s => .ok s
  | v => .error (.eval (.notString v))

end Scalar

end TableQuery
