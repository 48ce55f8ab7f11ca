import TableQuery.Operator.Grouping
import TableQuery.Operator.Sort

/-! # Windows

A window computes a value for each row from the rows of its partition: the row's place in the
order of the partition, or an aggregate over the rows up to it. Rows that tie in the order share
one aggregate, that of all rows up to the last of them; without sort keys all rows of a partition
tie. The values come out in the order of the rows. -/

namespace TableQuery

/-- What a window computes over rows. -/
inductive RowWindowFunction where
  | rowNumber
  | aggregate (a : RowAggregate)

/-- A window over the positions of a row. -/
structure RowWindow where
  function : RowWindowFunction
  partitionBy : List RowExpr
  orderBy : List (SortKey RowExpr)
  type : DataType

namespace RowWindow

variable (w : RowWindow)

/-- The function with the numbers of partition expressions and sort keys. -/
def text : String :=
  let call :=
    match w.function with
    | .rowNumber => "row_number()"
    | .aggregate a => a.text
  call ++ " OVER (partitions = " ++ toString w.partitionBy.length ++ ", orderings = " ++
    toString w.orderBy.length ++ ")"

/-- A row with its place in the input. -/
abbrev Member := Keyed (Nat × Row)

/-- The keys of the partition that a row is in. -/
def partitionKey (row : Row) : Result (List Key) :=
  w.partitionBy.mapM fun e => (e.eval row).map Scalar.key

/-- The values of an aggregate over sorted rows, each with the place of its row. -/
def runningFrom (a : RowAggregate) (state : AggregateState) :
    List Member → Result (List (Nat × Scalar))
  | [] => .ok []
  | first :: rest => do
    let peers := first :: rest.takeWhile (Keyed.isPeer w.orderBy first)
    let state ← a.fold state (peers.map (·.item.2))
    let values ← runningFrom a state (rest.dropWhile (Keyed.isPeer w.orderBy first))
    return peers.map (fun p => (p.item.1, state.result)) ++ values
termination_by members => members.length
decreasing_by exact Nat.lt_succ_of_le (List.dropWhile_sublist _).length_le

/-- The values of the rows of one partition, each with the place of its row. -/
def partitionValues (members : List Member) : Result (List (Nat × Scalar)) :=
  let sorted := Keyed.sort w.orderBy members
  match w.function with
  | .rowNumber => .ok (sorted.zipIdx.map fun (p, place) => (p.item.1, .ofCount place))
  | .aggregate a => w.runningFrom a a.initial sorted

/-- The values of the window, one for each row. -/
def values (rows : List Row) : Result (List Scalar) := do
  let partitions ← rows.mapM w.partitionKey
  let keys ← rows.mapM (SortKey.evalAll w.orderBy)
  let members : List Member := (keys.zip rows.zipIdx).map fun (ks, r, i) => ⟨ks, i, r⟩
  let groups := Grouping.ofItems (partitions.zip members)
  let placed ← groups.mapM fun g => w.partitionValues g.2
  return (List.range rows.length).map fun i => (placed.flatten.lookup i).getD .null

end RowWindow

end TableQuery
