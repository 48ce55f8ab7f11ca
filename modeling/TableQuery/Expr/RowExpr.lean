import TableQuery.Aggregate
import TableQuery.Batch
import TableQuery.Scalar.Infer
import TableQuery.Scalar.Logic

/-! # Expressions over rows

Expressions whose columns are positions in a row, with the type of every node worked out. They are
evaluated on one row at a time: all operands are evaluated, from left to right, before an operator
is applied. -/

namespace TableQuery

/-- A scalar expression over the positions of a row. -/
inductive RowExpr where
  | column (index : Nat) (type : DataType)
  | literal (value : Scalar)
  | arith (op : ArithOp) (left right : RowExpr) (type : DataType)
  | compare (op : CompareOp) (left right : RowExpr) (type : DataType)
  | conj (op : Connective) (operands : List RowExpr) (type : DataType)
  | unary (op : UnaryOp) (operand : RowExpr) (type : DataType)

namespace RowExpr

/-- The type of the expression's values. -/
def type : RowExpr → DataType
  | column _ t | arith _ _ _ t | compare _ _ _ t | conj _ _ t | unary _ _ t => t
  | literal v => v.dataType

mutual

/-- The value of the expression on a row. A position beyond the row reads as null. -/
def eval (row : Row) : RowExpr → Result Scalar
  | .column i _ => .ok (row.getD i .null)
  | .literal v => .ok v
  | .arith op a b t => do
    let x ← eval row a
    let y ← eval row b
    x.arith op y t
  | .compare op a b _ => do
    let x ← eval row a
    let y ← eval row b
    return x.compareBy op y
  | .conj op es _ => do Scalar.connect op (← evalAll row es)
  | .unary op e _ => do Scalar.applyUnary op (← eval row e)

def evalAll (row : Row) : List RowExpr → Result (List Scalar)
  | [] => .ok []
  | e :: r => do
    let v ← eval row e
    let vs ← evalAll row r
    return v :: vs

end

/-- Whether a value counts as true; null does not. -/
def isTrue : Scalar → Bool
  | .boolean b => b
  | _ => false

/-- Whether the expression is true on a row. -/
def holds (e : RowExpr) (row : Row) : Result Bool := (e.eval row).map isTrue

/-- The values of the expression on every row of a batch. -/
def evalBatch (e : RowExpr) (b : Batch) : Result Column :=
  (b.rows.mapM e.eval).map (⟨e.type, ·⟩)

mutual

/-- The display of the expression, in which columns are positions. -/
def text : RowExpr → String
  | .column i _ => "#" ++ toString i
  | .literal v => v.text
  | .arith op a b _ => "(" ++ text a ++ " " ++ op.symbol ++ " " ++ text b ++ ")"
  | .compare op a b _ => "(" ++ text a ++ " " ++ op.symbol ++ " " ++ text b ++ ")"
  | .conj op es _ => "(" ++ (" " ++ op.symbol ++ " ").intercalate (texts es) ++ ")"
  | .unary op e _ => op.around (text e)

def texts : List RowExpr → List String
  | [] => []
  | e :: r => text e :: texts r

end

end RowExpr

/-- An aggregate over the rows of a group; only the count of rows has no input. -/
structure RowAggregate where
  function : AggregateFunction
  input : Option RowExpr
  type : DataType

namespace RowAggregate

def initial (a : RowAggregate) : AggregateState := .initial a.function

/-- The state after one more row. -/
def update (a : RowAggregate) (state : AggregateState) (row : Row) : Result AggregateState := do
  let v ← match a.input with
    | some e => e.eval row
    | none => .ok .null
  state.update a.function v a.type

/-- The state after a list of rows. -/
def fold (a : RowAggregate) (state : AggregateState) (rows : List Row) : Result AggregateState :=
  rows.foldlM a.update state

def text (a : RowAggregate) : String := a.function.call (a.input.map RowExpr.text)

end RowAggregate

namespace SortKey

/-- The display of a sort key over rows. -/
def rowText (k : SortKey RowExpr) : String := k.expr.text ++ " " ++ k.directionText

/-- The order of two values under a key. -/
def order {α : Type} (k : SortKey α) (a b : Scalar) : Ordering :=
  match a.isNull, b.isNull with
  | true, true => .eq
  | true, false => if k.nullsFirst then .lt else .gt
  | false, true => if k.nullsFirst then .gt else .lt
  | false, false =>
    let o := (a.compare? b).getD .eq
    if k.descending then o.swap else o

/-- The order of two rows of key values: that of the first key under which they differ. -/
def orderAll {α : Type} : List (SortKey α) → List Scalar → List Scalar → Ordering
  | k :: ks, a :: r, b :: s => (k.order a b).then (orderAll ks r s)
  | _, _, _ => .eq

/-- The values of the keys on a row. -/
def evalAll (keys : List (SortKey RowExpr)) (row : Row) : Result (List Scalar) :=
  keys.mapM fun k => k.expr.eval row

end SortKey

end TableQuery
