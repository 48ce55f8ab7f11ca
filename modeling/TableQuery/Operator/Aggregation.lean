import TableQuery.Operator.Grouping
import TableQuery.Expr.RowExpr

/-! # Aggregating groups of rows

Rows are grouped by the keys of some expressions, nulls forming a group like any other value, and
aggregates are folded over each group. There is one output row for each group in the order of
first occurrence: the group's values, as its first row has them, and then its aggregates. Without
grouping expressions there is exactly one group, which may be empty. -/

namespace TableQuery

/-- Grouping and aggregates over the positions of rows. -/
structure RowAggregation where
  groupBy : List RowExpr
  aggregates : List RowAggregate

/-- The values that a group is formed by, and the states of its aggregates. -/
structure RowGroup where
  values : List Scalar
  states : List AggregateState

namespace RowAggregation

variable (a : RowAggregation)

/-- A group without rows. -/
def newGroup (values : List Scalar) : RowGroup := ⟨values, a.aggregates.map RowAggregate.initial⟩

/-- The group with one more row. -/
def addRow (row : Row) (g : RowGroup) : Result RowGroup := do
  let states ← (a.aggregates.zip g.states).mapM fun (f, state) => f.update state row
  return { g with states }

/-- The groups with one more row. -/
def step (groups : List (List Key × RowGroup)) (row : Row) :
    Result (List (List Key × RowGroup)) := do
  let values ← a.groupBy.mapM (·.eval row)
  Grouping.alterM (values.map Scalar.key) (a.newGroup values) (a.addRow row) groups

/-- The groups before any row. -/
def start : List (List Key × RowGroup) := if a.groupBy.isEmpty then [([], a.newGroup [])] else []

/-- The output row of a group. -/
def groupRow (g : RowGroup) : Row := g.values ++ g.states.map AggregateState.result

/-- The rows of the aggregation. -/
def rows (input : List Row) : Result (List Row) := do
  let groups ← input.foldlM a.step a.start
  return groups.map fun g => groupRow g.2

end RowAggregation

end TableQuery
