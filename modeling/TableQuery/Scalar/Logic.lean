import TableQuery.Scalar.Access
import TableQuery.Scalar.Compare

/-! # Comparison, connectives and operators with one operand

Comparison gives null for values that do not compare. The connectives are those of three-valued
logic: a decisive operand settles the result, else a null one makes it null. -/

namespace TableQuery

namespace Scalar

/-- The truth value of a comparison. -/
def compareBy (op : CompareOp) (a b : Scalar) : Scalar :=
  match a.compare? b with
  | some o => boolean (op.holds o)
  | none => null

/-- The truth value that settles a connective. -/
def decisive : Connective → Bool
  | .and => false
  | .or => true

/-- A connective over values that follow operands of which one may have been null. -/
def connectFrom (op : Connective) (sawNull : Bool) : List Scalar → Result Scalar
  | [] => .ok (if sawNull then null else boolean (!decisive op))
  | null :: r => connectFrom op true r
  | boolean b :: r => if b = decisive op then .ok (boolean b) else connectFrom op sawNull r
  | v :: _ => .error (.eval (.operandNotBoolean op v))

/-- The value of a connective over the values of its operands. -/
def connect (op : Connective) (values : List Scalar) : Result Scalar := connectFrom op false values

/-- A number or interval with its sign turned round. The least unscaled value of 128 bits, which no
decimal of 38 digits has, has no negation in range: its sign is turned round here with the error of
an integer, where machine arithmetic would stop or wrap around. -/
def negate (v : Scalar) : Result Scalar :=
  let overflow : Result Scalar := .error (.eval (.negateOverflow v))
  match v with
  | int t n =>
    if t.isSigned then
      match t.ofInt? (-n.val) with
      | some m => .ok (int t m)
      | none => overflow
    else .error (.eval (.cannotNegate v))
  | float t x => .ok (float t (t.encode (t.decode x).neg))
  | decimal d =>
    match Int128.ofInt? (-d.unscaled.val) with
    | some n => .ok (decimal ⟨n, d.scale⟩)
    | none => overflow
  | interval iv =>
    match IntType.int64.ofInt? (-iv.count.val) with
    | some n => .ok (interval ⟨n, iv.unit⟩)
    | none => overflow
  | v => .error (.eval (.cannotNegate v))

/-- The value of an operator with one operand. -/
def applyUnary (op : UnaryOp) (v : Scalar) : Result Scalar :=
  match op with
  | .isNull => .ok (boolean v.isNull)
  | .isNotNull => .ok (boolean !v.isNull)
  | .not => if v.isNull then .ok null else v.asBool.map fun b => boolean !b
  | .negate => if v.isNull then .ok null else v.negate

end Scalar

end TableQuery
