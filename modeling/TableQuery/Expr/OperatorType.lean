import TableQuery.DataType.Supertype
import TableQuery.Error

/-! # Types of operators

The type that each operator and aggregate function gives for the types of its operands, or the
reason why there is none. -/

namespace TableQuery

namespace ArithOp

/-- The type for two operands neither of which is null, without its nullability. -/
def resultType? (op : ArithOp) (a b : DataType) : Option DataType :=
  if a.isNumeric && b.isNumeric then
    if op = div then some .float64 else a.supertype? b
  else
    match op, a, b with
    | sub, .base (.timestamp _) _, .base (.timestamp _) _ => some (.interval .nanosecond)
    | sub, .base .date _, .base .date _ => some (.interval .day)
    | add, .base (.timestamp _) _, .base (.interval _) _
    | sub, .base (.timestamp _) _, .base (.interval _) _
    | add, .base .date _, .base (.interval _) _
    | sub, .base .date _, .base (.interval _) _ => some a
    | add, .base (.interval _) _, .base (.timestamp _) _
    | add, .base (.interval _) _, .base .date _ => some b
    | add, .base (.interval u) _, .base (.interval w) _
    | sub, .base (.interval u) _, .base (.interval w) _ => some (.interval (u.finest w))
    | mul, .base (.interval _) _, .base (.int _) _ => some a
    | mul, .base (.int _) _, .base (.interval _) _ => some b
    | _, _, _ => none

/-- The type beside a null operand, which takes on the type of the other one. -/
def resultTypeBesideNull? (op : ArithOp) (other : DataType) : Option DataType :=
  if op = div && other.isNumeric then some .float64
  else if other.isNumeric || other.isTemporal || other.isInterval then
    some (other.withNullable true)
  else none

/-- The type of an operation, nullable when either operand is. -/
def resultType (op : ArithOp) (a b : DataType) : Result DataType :=
  let result? :=
    if a.isNull && b.isNull then some .null
    else if a.isNull then op.resultTypeBesideNull? b
    else if b.isNull then op.resultTypeBesideNull? a
    else (op.resultType? a b).map (·.withNullable (a.nullable || b.nullable))
  match result? with
  | some t => .ok t
  | none => .error (.typing (.noArithmetic op a b))

end ArithOp

namespace CompareOp

def resultType (op : CompareOp) (a b : DataType) : Result DataType :=
  if a.isComparable b then .ok (.base .boolean (a.nullable || b.nullable))
  else .error (.typing (.incomparable op a b))

end CompareOp

namespace UnaryOp

def resultType (op : UnaryOp) (t : DataType) : Result DataType :=
  match op with
  | not =>
    if t.isBoolean || t.isNull then .ok (.base .boolean t.nullable)
    else .error (.typing (.notOfNonBoolean t))
  | negate =>
    if t.isSignedInteger || t.isFloating || t.isNull || t.isDecimal || t.isInterval then .ok t
    else .error (.typing (.cannotNegate t))
  | isNull | isNotNull => .ok (.base .boolean false)

end UnaryOp

namespace AggregateFunction

/-- The type of the aggregate for the type of its input. -/
def resultType (f : AggregateFunction) (t : DataType) : Result DataType :=
  let undefined : Result DataType := .error (.typing (.aggregateInput f t))
  match f with
  | countStar | count | countDistinct => .ok (.base (.int .int64) false)
  | sum =>
    match t with
    | .null => .ok .null
    | .base .boolean _ => .ok .int64
    | .base (.int w) _ => .ok (.int (if w.isSigned then .int64 else .uint64))
    | .base (.float _) _ => .ok .float64
    | .base (.decimal _ scale) _ => .ok (.decimal maxPrecision scale)
    | .base (.interval u) _ => .ok (.interval u)
    | _ => undefined
  | mean =>
    if t.isNull then .ok .null
    else if t.isNumeric || t.isBoolean then .ok .float64
    else undefined
  | min | max =>
    match t with
    | .struct _ _ | .map _ _ _ => undefined
    | t => .ok (t.withNullable true)

end AggregateFunction

end TableQuery
