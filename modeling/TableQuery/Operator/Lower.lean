import TableQuery.Expr.Resolve
import TableQuery.Operator.Basic

/-! # Lowering plans

A plan becomes a tree of operators, inputs before the nodes that read them. Expressions are
resolved over the schema of the lowered input. Windows inside a projection are taken out: a window
operator below the projection computes them, and a column with a name made up for it stands in
place of each. Names are numbered through the whole plan. -/

namespace TableQuery

/-- Lowering keeps the number of the next name to make up. -/
abbrev Lowering (α : Type) := StateT Nat (Except Error) α

namespace Lowering

/-- The result of a computation that makes up no names. -/
def ofResult {α : Type} (r : Result α) : Lowering α := fun n => r.map (·, n)

end Lowering

/-- A window that was taken out of an expression, and the column that stands for it. -/
structure NamedWindow where
  name : String
  function : WindowFunction
  input : Option Expr
  partitionBy : List Expr
  orderBy : List (SortKey Expr)

namespace NamedWindow

/-- The name of the column that stands for a window. -/
def columnName (n : Nat) : String := "__window_" ++ toString n

/-- The number of the next name, and the windows taken out so far. -/
abbrev Taking := StateM (Nat × List NamedWindow)

/-- Takes out one window. -/
def take (f : WindowFunction) (input : Option Expr) (partitionBy : List Expr)
    (orderBy : List (SortKey Expr)) : Taking Expr := do
  let (n, windows) ← get
  set (n + 1, windows ++ [⟨columnName n, f, input, partitionBy, orderBy⟩])
  return .col (columnName n)

/-- Expressions without their windows, and the windows. -/
def takeFrom (exprs : List Expr) : Lowering (List Expr × List NamedWindow) := do
  let n ← get
  let (exprs, next, windows) := ((exprs.mapM (Expr.mapWindowsM take) : Taking _) (n, []))
  set next
  return (exprs, windows)

/-- The window over positions. -/
def resolve (scopes : List Scope) (w : NamedWindow) : Result RowWindow := do
  let (function, type) ← match w.function with
    | .rowNumber => .ok (RowWindowFunction.rowNumber, DataType.int64.nonNull)
    | .aggregate f => (Expr.resolveCall scopes f w.input).map fun a => (.aggregate a, a.type)
  let partitionBy ← w.partitionBy.mapM (Expr.resolve scopes)
  let orderBy ← SortKey.resolveAll scopes w.orderBy
  return ⟨function, partitionBy, orderBy, type⟩

end NamedWindow

namespace Schema

/-- The position of a join column. -/
def joinIndex (s : Schema) (side name : String) : Result Nat :=
  match s.index? name with
  | some i => .ok i
  | none => .error (.join (.missingColumn name side))

end Schema

namespace Join

/-- The positions of the columns of a condition. -/
def keyIndices (left right : Schema) (c : JoinCondition) : Result (Nat × Nat) := do
  let l ← left.joinIndex "left" c.left
  let r ← right.joinIndex "right" c.right
  return (l, r)

/-- The positions that an output column reads. -/
def rowSource (left right : Schema) (o : JoinOutput) : Result RowSource :=
  match o.source with
  | .left n => (left.joinIndex "left" n).map .left
  | .right n => (right.joinIndex "right" n).map .right
  | .coalesce l r => do
    let i ← left.joinIndex "left" l
    let k ← right.joinIndex "right" r
    return .coalesce i k

/-- The join over positions. -/
def resolve (j : Join) (left right : Plan) : Result RowJoin := do
  let keys ← j.conditions.mapM (keyIndices left.schema right.schema)
  let residual ← j.residual.mapM
    (Expr.resolve (Scope.join left.ref left.schema right.ref right.schema))
  let outputs ← j.outputs.mapM (rowSource left.schema right.schema)
  return ⟨j.kind, keys.map Prod.fst, keys.map Prod.snd, residual, outputs⟩

end Join

namespace OperatorPlan

/-- The window operator on top of an input; its rows are those of the input with a column for each
window. -/
def windowNode (child : OperatorPlan) (windows : List NamedWindow) : Result OperatorPlan := do
  let resolved ← windows.mapM (NamedWindow.resolve (Scope.single child.schema))
  let schema ← Schema.ofFields
    (child.schema.fields ++ (windows.zip resolved).map fun (w, r) => (w.name, r.type))
  return node (.window resolved) schema [child]

/-- A projection on top of an input. -/
def projectNode (child : OperatorPlan) (exprs : List Expr) (schema : Schema) :
    Lowering OperatorPlan := do
  let (exprs, windows) ← NamedWindow.takeFrom exprs
  let input ← if windows.isEmpty then pure child else Lowering.ofResult (windowNode child windows)
  let resolved ← Lowering.ofResult (Expr.resolveAll (Scope.single input.schema) exprs)
  return node (.project resolved) schema [input]

/-- The operator of a node with one input, which has been lowered. -/
def unaryNode (op : Operation) (schema : Schema) (child : OperatorPlan) :
    Lowering OperatorPlan :=
  let scopes := Scope.single child.schema
  match op with
  | .project exprs => projectNode child exprs schema
  | .filter predicate => .ofResult do
    return node (.filter (← predicate.resolve scopes)) schema [child]
  | .aggregate groupBy metrics => .ofResult do
    let keys ← Expr.resolveAll scopes groupBy
    let aggregates ← metrics.mapM (Expr.resolveAggregate scopes)
    return node (.aggregate ⟨keys, aggregates⟩) schema [child]
  | .order keys => .ofResult do
    return node (.sort (← SortKey.resolveAll scopes keys)) schema [child]
  | .limit n offset => .ofResult (.ok (node (.limit n offset) schema [child]))
  | _ => .ofResult (.ok child)

/-- The tree of operators for a plan. -/
def lower : Plan → Lowering OperatorPlan
  | .node (.scan table) _ schema _ => pure (node (.scan table) schema [])
  | .node (.sqlQuery query) _ schema _ => pure (node (.sqlQuery query) schema [])
  | .node (.values batch) _ schema _ => pure (node (.values batch) schema [])
  | .node (.join j) _ schema [left, right] => do
    let l ← lower left
    let r ← lower right
    let join ← Lowering.ofResult (j.resolve left right)
    return node (.join join) schema [l, r]
  | .node (.join _) _ _ children =>
    .ofResult (.error (.plan (.twoChildren (some children.length))))
  | .node op _ schema [child] => do unaryNode op schema (← lower child)
  | .node op _ _ children => .ofResult (.error (.plan (.oneChild op.name children.length)))

/-- The tree of operators for a plan, or the reason why there is none. -/
def ofPlan (p : Plan) : Result OperatorPlan := (lower p).run' 0

end OperatorPlan

end TableQuery
