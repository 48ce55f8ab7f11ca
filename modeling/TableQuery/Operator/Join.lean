import TableQuery.Operator.Grouping
import TableQuery.Expr.RowExpr
import TableQuery.Relation.Plan

/-! # Joining rows

A join on the equality of keys with a residual predicate. The right rows are indexed by their
keys; each left row then looks up the right rows that it may match and keeps those for which the
residual is true. A row with a null among its keys matches nothing. The output has the order of
the left rows, and within it that of the right ones; right and full joins add the right rows
without a match at the end. -/

namespace TableQuery

/-- Where an output column takes its values from, by position. -/
inductive RowSource where
  | left (i : Nat)
  | right (i : Nat)
  /-- The left value, or the right one if that is null. -/
  | coalesce (left right : Nat)
  deriving DecidableEq

namespace RowSource

def text : RowSource → String
  | left i => "left.#" ++ toString i
  | right i => "right.#" ++ toString i
  | coalesce l r => "coalesce(left.#" ++ toString l ++ ", right.#" ++ toString r ++ ")"

/-- A value of a row that may be missing. -/
def read (row : Option Row) (i : Nat) : Scalar := (row.getD []).getD i .null

/-- The value for a pair of rows, of which one may be missing. -/
def value (left right : Option Row) : RowSource → Scalar
  | .left i => read left i
  | .right i => read right i
  | .coalesce l r => if (read left l).isNull then read right r else read left l

end RowSource

namespace JoinKind

/-- Whether left rows without a match come out with nulls on the right. -/
def keepsLeft : JoinKind → Bool
  | left | full => true
  | _ => false

/-- Whether right rows without a match come out with nulls on the left. -/
def keepsRight : JoinKind → Bool
  | right | full => true
  | _ => false

end JoinKind

/-- A join over the positions of rows. The residual reads the left row and then the right one. -/
structure RowJoin where
  kind : JoinKind
  leftKeys : List Nat
  rightKeys : List Nat
  residual : Option RowExpr
  outputs : List RowSource

namespace RowJoin

/-- The keys of a row, unless one of them is null. -/
def rowKey? (positions : List Nat) (row : Row) : Option (List Key) :=
  let keys := positions.map fun i => (row.getD i .null).key
  if keys.any Key.isNull then none else some keys

/-- A right row with its place. -/
abbrev Placed := Row × Nat

variable (j : RowJoin)

/-- The right rows that have keys, by their keys. -/
def index (right : List Row) : List (List Key × List Placed) :=
  Grouping.ofItems (right.zipIdx.filterMap fun p => (rowKey? j.rightKeys p.1).map (·, p))

/-- The right rows whose keys a left row has. -/
def candidates (index : List (List Key × List Placed)) (left : Row) : List Placed :=
  match rowKey? j.leftKeys left with
  | some k => Grouping.content k index
  | none => []

/-- Whether the residual is true of a pair of rows. -/
def accepts (left right : Row) : Result Bool :=
  match j.residual with
  | some e => e.holds (left ++ right)
  | none => .ok true

/-- The candidates that a left row matches; the search ends at the first one when only the
existence of a match counts. -/
def matching (left : Row) : List Placed → Result (List Placed)
  | [] => .ok []
  | c :: r => do
    if ← j.accepts left c.1 then
      if j.kind.leftOnly then return [c] else return c :: (← matching left r)
    else matching left r

/-- The output row for a pair of rows, of which one may be missing. -/
def emit (left right : Option Row) : Row := j.outputs.map (RowSource.value left right)

/-- The output rows for a left row and its matches. -/
def emitLeft (left : Row) (found : List Placed) : List Row :=
  match j.kind with
  | .semi => if found.isEmpty then [] else [j.emit (some left) none]
  | .anti => if found.isEmpty then [j.emit (some left) none] else []
  | _ =>
    if found.isEmpty && j.kind.keepsLeft then [j.emit (some left) none]
    else found.map fun p => j.emit (some left) (some p.1)

/-- The output rows for the right rows whose places are not among those matched. -/
def emitUnmatched (right : List Row) (matched : List Nat) : List Row :=
  if j.kind.keepsRight then
    (right.zipIdx.filter fun p => !matched.contains p.2).map fun p => j.emit none (some p.1)
  else []

/-- The rows of the join. -/
def rows (left right : List Row) : Result (List Row) := do
  let index := j.index right
  let found ← left.mapM fun l => j.matching l (j.candidates index l)
  let pairs := (left.zip found).flatMap fun (l, ps) => j.emitLeft l ps
  return pairs ++ j.emitUnmatched right (found.flatten.map Prod.snd)

end RowJoin

end TableQuery
