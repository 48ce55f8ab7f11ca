import TableQuery.Error

/-! # Batches

A batch holds rows together with the types of its columns. Every row of a batch that is built by
the operations below has as many values as there are types (`Batch.Rectangular`). A batch without
columns still has a number of rows. `Batch.columns` is the view of a batch column by column. -/

namespace TableQuery

/-- One column: its type and its values. -/
structure Column where
  type : DataType
  values : List Scalar

namespace Column

/-- The values at the given positions, null where no position is given. -/
def select (c : Column) (positions : List (Option Nat)) : Result Column := do
  let values ← positions.mapM fun
    | none => .ok .null
    | some i =>
      match c.values[i]? with
      | some v => .ok v
      | none => .error (.batch (.rowOutOfBounds i c.values.length))
  return ⟨c.type, values⟩

end Column

/-- Rows of values with the types of their columns. -/
structure Batch where
  types : List DataType
  rows : List Row

namespace Batch

/-- No columns and no rows. -/
def empty : Batch := ⟨[], []⟩

instance : Inhabited Batch := ⟨empty⟩

/-- Every row has a value for each column. -/
def Rectangular (b : Batch) : Prop := ∀ r ∈ b.rows, r.length = b.types.length

def numRows (b : Batch) : Nat := b.rows.length

def numColumns (b : Batch) : Nat := b.types.length

/-- A number of rows without columns. -/
def ofCount (n : Nat) : Batch := ⟨[], List.replicate n []⟩

/-- The batch of these rows, each of which must have a value for each type. -/
def ofRows (types : List DataType) (rows : List Row) : Result Batch :=
  match rows.find? (·.length ≠ types.length) with
  | some r => .error (.batch (.rowWidth types.length r.length))
  | none => .ok ⟨types, rows⟩

/-- The values at one position of each column, the columns being long enough. -/
def rowAt (columns : List Column) (i : Nat) : Row := columns.map fun c => c.values.getD i .null

/-- The batch of these columns, all of which must have one length. -/
def ofColumns (columns : List Column) : Result Batch :=
  match columns with
  | [] => .ok empty
  | first :: _ =>
    match columns.find? (·.values.length ≠ first.values.length) with
    | some c => .error (.batch (.columnLengths first.values.length c.values.length))
    | none =>
      .ok ⟨columns.map Column.type, (List.range first.values.length).map (rowAt columns)⟩

/-- The batch column by column. -/
def columns (b : Batch) : List Column :=
  b.types.zipIdx.map fun (t, j) => ⟨t, b.rows.map fun r => r.getD j .null⟩

/-- The row at a position. -/
def row? (b : Batch) (i : Nat) : Option Row := b.rows[i]?

/-- The rows at the given positions, in that order. Positions are not looked at when there are no
columns to take values from. -/
def select (b : Batch) (positions : List Nat) : Result Batch :=
  if b.types.isEmpty then .ok (ofCount positions.length)
  else do
    let rows ← positions.mapM fun i =>
      match b.rows[i]? with
      | some r => .ok r
      | none => .error (.batch (.rowOutOfBounds i b.rows.length))
    return ⟨b.types, rows⟩

/-- At most `limit` rows from position `offset` on. -/
def slice (b : Batch) (offset : Nat) (limit : Option Nat) : Batch :=
  let rest := b.rows.drop offset
  ⟨b.types, match limit with
    | some n => rest.take n
    | none => rest⟩

/-- The rows of both batches. A batch with neither columns nor rows takes on the layout of the
other one; otherwise the numbers of columns must agree. -/
def append (a b : Batch) : Result Batch :=
  if a.types.isEmpty && a.rows.isEmpty then .ok b
  else if b.types.length ≠ a.types.length then
    .error (.batch (.columnCounts a.types.length b.types.length))
  else .ok ⟨a.types, a.rows ++ b.rows⟩

/-- The same rows under other types. -/
def withTypes (b : Batch) (types : List DataType) : Batch := ⟨types, b.rows⟩

end Batch

end TableQuery
