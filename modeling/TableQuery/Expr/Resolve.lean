import TableQuery.Expr.RowExpr
import TableQuery.Expr.OperatorType
import TableQuery.Expr.Traverse
import TableQuery.Schema

/-! # Resolving columns to positions

An expression is resolved over one or more relations whose columns stand one after the other in a
row. A column that carries a table reference is looked for in that table first, and then by name
in each relation in turn. Types are worked out on the way up. -/

namespace TableQuery

/-- One relation that columns are looked for in. -/
structure Scope where
  table : Option TableRef
  schema : Schema
  /-- The position of the relation's first column in the row. -/
  offset : Nat

namespace Scope

/-- A single relation. -/
def single (schema : Schema) : List Scope := [⟨none, schema, 0⟩]

/-- The two sides of a join, the left columns before the right ones. -/
def join (leftRef : TableRef) (left : Schema) (rightRef : TableRef) (right : Schema) :
    List Scope :=
  [⟨some leftRef, left, 0⟩, ⟨some rightRef, right, left.size⟩]

/-- The position and type of a column by its name. -/
def find? (name : String) (s : Scope) : Option (Nat × DataType) := do
  let i ← s.schema.index? name
  let t ← s.schema.type? name
  return (s.offset + i, t)

/-- The position and type of a column: in the table it carries, else wherever its name is found
first. -/
def resolve? (scopes : List Scope) (c : ColumnRef) : Option (Nat × DataType) :=
  let inTable :=
    if c.table.isSome then (scopes.filter (·.table = c.table)).findSome? (find? c.name) else none
  inTable.or (scopes.findSome? (find? c.name))

end Scope

namespace Expr

mutual

/-- The expression over positions. Aggregates and windows have to be taken out before. -/
def resolve (scopes : List Scope) : Expr → Result RowExpr
  | .column table name =>
    match Scope.resolve? scopes ⟨table, name⟩ with
    | some (i, t) => .ok (.column i t)
    | none => .error (.typing (.unresolvedColumn name))
  | .literal v => .ok (.literal v)
  | .arith op a b => do
    let x ← resolve scopes a
    let y ← resolve scopes b
    let t ← op.resultType x.type y.type
    return .arith op x y t
  | .compare op a b => do
    let x ← resolve scopes a
    let y ← resolve scopes b
    let t ← op.resultType x.type y.type
    return .compare op x y t
  | .conj op es => do
    let xs ← resolveAll scopes es
    return .conj op xs (.base .boolean (xs.any (·.type.nullable)))
  | .unary op e => do
    let x ← resolve scopes e
    let t ← op.resultType x.type
    return .unary op x t
  | .aliased _ e => resolve scopes e
  | .aggregate f input => .error (.typing (.notScalar (.aggregate f input)))
  | .window f input ps ks => .error (.typing (.notScalar (.window f input ps ks)))

def resolveAll (scopes : List Scope) : List Expr → Result (List RowExpr)
  | [] => .ok []
  | e :: r => do
    let x ← resolve scopes e
    let xs ← resolveAll scopes r
    return x :: xs

end

/-- An aggregate call over positions. -/
def resolveCall (scopes : List Scope) (f : AggregateFunction) (input : Option Expr) :
    Result RowAggregate := do
  let x ← input.mapM (resolve scopes)
  let t ← f.resultType (x.elim .null RowExpr.type)
  return ⟨f, x, t⟩

/-- An aggregate, possibly under a name, over positions. -/
def resolveAggregate (scopes : List Scope) (e : Expr) : Result RowAggregate :=
  match e.unaliased with
  | aggregate f input => resolveCall scopes f input
  | e => .error (.typing (.notAnAggregate e))

end Expr

namespace SortKey

/-- Sort keys over positions. -/
def resolveAll (scopes : List Scope) (keys : List (SortKey Expr)) :
    Result (List (SortKey RowExpr)) :=
  keys.mapM fun k => do return ⟨← k.expr.resolve scopes, k.descending, k.nullsFirst⟩

end SortKey

end TableQuery
