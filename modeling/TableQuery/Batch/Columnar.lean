import TableQuery.Batch

/-! # Batches by columns

A batch in memory is a list of columns, and the number of rows beside them, since a batch without
columns has rows, too. Nothing in the type says that the columns have that many values: each
operation sees to it. `rows` reads such a batch row by row, and `toBatch` is the batch of these
rows. -/

namespace TableQuery

/-- The greatest count, of 64 bits. -/
def maxCount : Nat := 18446744073709551615

/-- The sum of two counts, or the greatest count if the sum is none. -/
def addCounts (a b : Nat) : Nat := min (a + b) maxCount

/-- The values of another column behind those of a column. -/
def Column.append (c d : Column) : Column := ⟨c.type, c.values ++ d.values⟩

/-- Columns, and the number of their rows. -/
structure ColumnBatch where
  columns : List Column
  numRows : Nat

namespace ColumnBatch

/-! ### Making batches -/

/-- A number of rows without columns. -/
def ofCount (n : Nat) : ColumnBatch := ⟨[], n⟩

/-- The batch of these columns, all of which must have one length. -/
def ofColumns (columns : List Column) : Result ColumnBatch :=
  match columns with
  | [] => .ok (ofCount 0)
  | first :: _ =>
    match columns.find? (·.values.length ≠ first.values.length) with
    | some c => .error (.batch (.columnLengths first.values.length c.values.length))
    | none => .ok ⟨columns, first.values.length⟩

/-- The values of a row behind those that the columns have already. -/
def addRow (width : Nat) (columns : List (List Scalar)) (row : Row) :
    Result (List (List Scalar)) :=
  if row.length ≠ width then .error (.batch (.rowWidth width row.length))
  else .ok (List.zipWith (fun values v => values ++ [v]) columns row)

/-- The batch of these rows, each of which must have a value for each type. -/
def ofRows (types : List DataType) (rows : List Row) : Result ColumnBatch := do
  let columns ← rows.foldlM (addRow types.length) (List.replicate types.length [])
  if types.isEmpty then return ofCount rows.length
  ofColumns (List.zipWith Column.mk types columns)

/-- The rows of a batch, by columns. -/
def ofBatch (b : Batch) : ColumnBatch := ⟨b.columns, b.numRows⟩

/-! ### Reading rows -/

/-- The row at a position, a value from each column. -/
def row? (b : ColumnBatch) (i : Nat) : Option Row :=
  if i < b.numRows then b.columns.mapM fun c => c.values[i]? else none

/-- All rows; a column that is too short would leave rows out. -/
def rows (b : ColumnBatch) : List Row := (List.range b.numRows).filterMap b.row?

/-- The batch row by row. -/
def toBatch (b : ColumnBatch) : Batch := ⟨b.columns.map Column.type, b.rows⟩

/-! ### Operations -/

/-- The rows at the given positions, in that order, which are taken from every column. -/
def select (b : ColumnBatch) (positions : List Nat) : Result ColumnBatch :=
  if b.columns.isEmpty then .ok (ofCount positions.length)
  else do
    let columns ← b.columns.mapM fun c => c.select (positions.map some)
    ofColumns columns

/-- The positions from `offset` on among `n` ones, at most `limit` many. -/
def slicePositions (n offset : Nat) (limit : Option Nat) : List Nat :=
  let stop := match limit with
    | some k => min (addCounts offset k) n
    | none => n
  let start := min offset stop
  List.range' start (stop - start)

/-- At most `limit` rows from position `offset` on. -/
def slice (b : ColumnBatch) (offset : Nat) (limit : Option Nat) : Result ColumnBatch :=
  b.select (slicePositions b.numRows offset limit)

/-- The rows of another batch put behind those of a batch: whether that was possible, and the batch
as it is afterwards. A batch with neither columns nor rows becomes the other one. The rows of both
are taken to be few enough to be counted (`maxCount`). -/
def append (a b : ColumnBatch) : Result Unit × ColumnBatch :=
  if a.columns.isEmpty && a.numRows == 0 then (.ok (), b)
  else if b.columns.length ≠ a.columns.length then
    (.error (.batch (.columnCounts a.columns.length b.columns.length)), a)
  else (.ok (), ⟨List.zipWith Column.append a.columns b.columns, a.numRows + b.numRows⟩)

end ColumnBatch

end TableQuery
