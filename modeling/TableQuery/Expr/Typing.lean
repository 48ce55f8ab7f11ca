import TableQuery.Schema
import TableQuery.Expr.OperatorType
import TableQuery.Expr.Traverse
import TableQuery.Scalar.Infer

/-! # Typing expressions

The type of an expression over the columns of a schema, found by name. Aggregates and windows have
types too; an aggregate of an aggregate has none. -/

namespace TableQuery

namespace Expr

/-- The type of an aggregate call for the type of its input, if it has one. -/
def aggregateType (f : AggregateFunction) (input : Option Expr) (t : Unit → Result DataType) :
    Result DataType := do
  if input.any (·.hasAggregate) then .error (.typing (.nestedAggregate f input))
  else f.resultType (← t ())

mutual

/-- The type of the expression. -/
def typeIn (schema : Schema) : Expr → Result DataType
  | .column _ name => schema.typeOf name
  | .literal v => .ok v.dataType
  | .arith op a b => do
    let s ← typeIn schema a
    let t ← typeIn schema b
    op.resultType s t
  | .compare op a b => do
    let s ← typeIn schema a
    let t ← typeIn schema b
    op.resultType s t
  | .conj op es => do return .base .boolean (← nullableOperandsIn schema op es)
  | .unary op e => do op.resultType (← typeIn schema e)
  | .aggregate f input => aggregateType f input fun _ => inputTypeIn schema input
  | .window f input ps ks => do
    checkAllIn schema ps
    checkKeysIn schema ks
    match f with
    | .rowNumber => return .base (.int .int64) false
    | .aggregate f => aggregateType f input fun _ => inputTypeIn schema input
  | .aliased _ e => typeIn schema e

/-- The type of an aggregate's input; a missing one counts as null. -/
def inputTypeIn (schema : Schema) : Option Expr → Result DataType
  | none => .ok .null
  | some e => typeIn schema e

/-- Whether any operand of a connective is nullable; each must be a boolean or null. -/
def nullableOperandsIn (schema : Schema) (op : Connective) : List Expr → Result Bool
  | [] => .ok false
  | e :: r => do
    let t ← typeIn schema e
    if !(t.isBoolean || t.isNull) then .error (.typing (.operandNotBoolean op t e))
    let rest ← nullableOperandsIn schema op r
    return t.nullable || rest

/-- Every expression has a type. -/
def checkAllIn (schema : Schema) : List Expr → Result Unit
  | [] => .ok ()
  | e :: r => do
    let _ ← typeIn schema e
    checkAllIn schema r

/-- Every sort key has a type. -/
def checkKeysIn (schema : Schema) : List (SortKey Expr) → Result Unit
  | [] => .ok ()
  | ⟨e, _, _⟩ :: r => do
    let _ ← typeIn schema e
    checkKeysIn schema r

end

/-- The expression over a window. -/
def overWindow (partitionBy : List Expr) (orderBy : List (SortKey Expr)) (e : Expr) : Result Expr :=
  match e.overWindow? partitionBy orderBy with
  | some w => .ok w
  | none => .error (.typing (.notWindowable e.unaliased))

end Expr

end TableQuery
