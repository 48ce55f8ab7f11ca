import TableQuery.Operator.Basic

/-! # Running operators

Every operator turns the complete batches of its inputs into one batch; the inputs of a node are
run before it, from left to right. A wrong number of inputs is an error. Only scans and SQL
queries read from a source of rows. -/

namespace TableQuery

/-- Where scans and SQL queries read their rows from. -/
structure RowProvider where
  scan : String → Result Batch
  query : String → Result Batch

/-- The rows on which a predicate is true. -/
def RowExpr.keepRows (predicate : RowExpr) : List Row → Result (List Row)
  | [] => .ok []
  | r :: rows => do
    let keep ← predicate.holds r
    let rest ← keepRows predicate rows
    return if keep then r :: rest else rest

namespace Batch

/-- The batch with further columns, one value of each for every row. -/
def withColumns (b : Batch) (columns : List Column) : Batch :=
  ⟨b.types ++ columns.map Column.type,
    b.rows.zipIdx.map fun (r, i) => r ++ rowAt columns i⟩

/-- The values of some expressions on every row. The types may be fewer than the expressions, which
are then cut off; without expressions only the number of rows is left. -/
def project (b : Batch) (exprs : List RowExpr) (types : List DataType) : Result Batch := do
  let rows ← b.rows.mapM fun r => exprs.mapM (·.eval r)
  if exprs.isEmpty then return .ofCount b.numRows
  else
    let types := types.take exprs.length
    return if types.isEmpty then .empty else ⟨types, rows.map (·.take types.length)⟩

end Batch

namespace Operator

/-- The only input of an operator. -/
def singleInput (op : Operator) : List Batch → Result Batch
  | [b] => .ok b
  | _ => .error (.plan (.oneInput op.name))

/-- The output of an operator whose columns have the given types. -/
def run (provider : RowProvider) (types : List DataType) (inputs : List Batch) (op : Operator) :
    Result Batch :=
  match op with
  | scan table => provider.scan table
  | sqlQuery query => provider.query query
  | values batch => if inputs.isEmpty then .ok batch else .error (.plan (.noInputs inputs.length))
  | project exprs => do (← op.singleInput inputs).project exprs types
  | filter predicate => do
    let input ← op.singleInput inputs
    return ⟨input.types, ← predicate.keepRows input.rows⟩
  | window windows => do
    let input ← op.singleInput inputs
    let columns ← windows.mapM fun w => (w.values input.rows).map (⟨w.type, ·⟩ : _ → Column)
    return input.withColumns columns
  | join j =>
    match inputs with
    | [left, right] => do Batch.ofRows types (← j.rows left.rows right.rows)
    | _ => .error (.plan .twoInputs)
  | aggregate a => do
    let input ← op.singleInput inputs
    Batch.ofRows types (← a.rows input.rows)
  | sort keys => do
    let input ← op.singleInput inputs
    return ⟨input.types, ← Row.sort keys input.rows⟩
  | limit n offset => do return (← op.singleInput inputs).slice offset n

end Operator

namespace OperatorPlan

mutual

/-- The rows of a tree of operators. -/
def run (provider : RowProvider) : OperatorPlan → Result Batch
  | .node op schema children => do
    let inputs ← runAll provider children
    op.run provider schema.types inputs

def runAll (provider : RowProvider) : List OperatorPlan → Result (List Batch)
  | [] => .ok []
  | p :: r => do
    let b ← run provider p
    let bs ← runAll provider r
    return b :: bs

end

end OperatorPlan

end TableQuery
