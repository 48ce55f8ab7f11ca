import TableQuery.Batch.Columnar
import TableQuery.Operator.Run
import TableQuery.Source
import TableQuery.Sql.Selection

/-! # The table store

Tables held in memory: a schema and the columns of each, under different names. Data that comes in
is checked against the schema of its table and takes on its types. An operation that changes the
store gives a result and the store as it is afterwards; nothing in its type says that the store
stays as it was where the result is an error. Plans read from the store by `Store.provider`; plain
selections are answered without a plan. -/

namespace TableQuery

/-- A table of the store. -/
structure StoredTable where
  schema : Schema
  data : ColumnBatch

/-- Tables by name, in the order of creation. -/
structure Store where
  tables : List (String × StoredTable)

/-- What happens when a table to be created is there already. -/
inductive OnConflict where
  | error | ignore | replace
  deriving DecidableEq

namespace Store

def empty : Store := ⟨[]⟩

/-- The table of a name. -/
def find (s : Store) (name : String) : Except StoreError StoredTable :=
  match s.tables.lookup name with
  | some t => .ok t
  | none => .error (.missingTable name)

/-- What is read from the store, with its errors among all others. -/
def read {α : Type} (r : Except StoreError α) : Result α := r.mapError Error.store

/-- A change of the store, with its errors among all others. -/
def lift (change : Except StoreError Unit × Store) : Result Unit × Store :=
  (change.1.mapError Error.store, change.2)

/-! ### Rows of a table -/

/-- Data as rows of a table: one value for each column and no null where none may be. -/
def conform (name : String) (schema : Schema) (data : Batch) : Except StoreError Batch :=
  if data.numColumns ≠ schema.size then
    .error (.columnCount name schema.size data.numColumns)
  else
    match (schema.fields.zip data.columns).find? fun (f, c) =>
      !f.2.nullable && c.values.any Scalar.isNull with
    | some (f, _) => .error (.nullInColumn name f.1)
    | none => .ok (if schema.fields.isEmpty then .empty else data.withTypes schema.types)

/-- No rows of a table. -/
def noRows (schema : Schema) : ColumnBatch := ⟨schema.types.map (⟨·, []⟩), 0⟩

/-- The rows that a table is created with: the data, if there is any, as far as it is taken. -/
def firstRows (name : String) (schema : Schema) : Option Batch → Except StoreError ColumnBatch
  | some b => (conform name schema b).map .ofBatch
  | none => .ok (noRows schema)

/-! ### Changing tables -/

/-- The tables with one put under a name, in its place if the name is taken. -/
def put (name : String) (t : StoredTable) : List (String × StoredTable) →
    List (String × StoredTable)
  | [] => [(name, t)]
  | (n, u) :: r => if n = name then (n, t) :: r else (n, u) :: put name t r

/-- Creates a table. Its data, if any, is checked before the name is. -/
def create (s : Store) (name : String) (schema : Schema) (data : Option Batch)
    (onConflict : OnConflict) : Except StoreError Unit × Store :=
  match firstRows name schema data with
  | .error e => (.error e, s)
  | .ok rows =>
    if (s.tables.lookup name).isSome && onConflict ≠ .replace then
      (if onConflict = .ignore then .ok () else .error (.tableExists name), s)
    else (.ok (), ⟨put name ⟨schema, rows⟩ s.tables⟩)

/-- Adds rows to a table, in its place: the table becomes what appending leaves of it. -/
def insert (s : Store) (name : String) (data : Batch) : Result Unit × Store :=
  match s.find name with
  | .error e => (.error (.store e), s)
  | .ok t =>
    match conform name t.schema data with
    | .error e => (.error (.store e), s)
    | .ok rows =>
      let appended := t.data.append (.ofBatch rows)
      (appended.1, ⟨put name ⟨t.schema, appended.2⟩ s.tables⟩)

/-- Removes the rows of a table. -/
def truncate (s : Store) (name : String) : Except StoreError Unit × Store :=
  match s.find name with
  | .error e => (.error e, s)
  | .ok t => (.ok (), ⟨put name ⟨t.schema, noRows t.schema⟩ s.tables⟩)

/-- Removes a table; with `force` it need not have been there. -/
def drop (s : Store) (name : String) (force : Bool) : Except StoreError Unit × Store :=
  (if (s.tables.lookup name).isNone && !force then .error (.missingTable name) else .ok (),
    ⟨s.tables.filter (·.1 ≠ name)⟩)

/-- The names of the tables, sorted. -/
def names (s : Store) : List String :=
  (s.tables.map Prod.fst).mergeSort fun a b => decide (a ≤ b)

/-! ### Reading tables -/

/-- The rows of a table. -/
def scan (s : Store) (name : String) : Result Batch :=
  read ((s.find name).map fun t => t.data.toBatch)

/-- The position and the output name of a selected column. -/
def selectedColumn (table : String) (schema : Schema) (c : Sql.SelectedColumn) :
    Except StoreError (Nat × String) :=
  match schema.index? c.column with
  | some i => .ok (i, c.outputName)
  | none => .error (.missingColumn table c.column)

/-- The table of a selection, with the positions and output names of its columns. -/
def resolve (s : Store) (selection : Sql.Selection) :
    Except StoreError (StoredTable × List (Nat × String)) := do
  let t ← s.find selection.table
  let columns ← match selection.columns with
    | none => .ok (t.schema.names.zipIdx.map fun (n, i) => (i, n))
    | some cs => cs.mapM (selectedColumn selection.table t.schema)
  return (t, columns)

/-- The rows of a query that is a plain selection. -/
def query (s : Store) (sql : String) : Result Batch := do
  let selection ← read (Sql.Selection.parse sql)
  let (t, columns) ← read (s.resolve selection)
  let picked ← ColumnBatch.ofColumns (columns.filterMap fun c => t.data.columns[c.1]?)
  return picked.toBatch.slice selection.offset selection.limit

/-- The schema of a query that is a plain selection. -/
def querySchema (s : Store) (sql : String) : Result Schema := do
  let selection ← read (Sql.Selection.parse sql)
  let (t, columns) ← read (s.resolve selection)
  Schema.ofFields (columns.map fun (i, n) => (n, t.schema.types.getD i .unknown))

/-- The schema of a table. -/
def schemaOf (s : Store) (name : String) : Result Schema :=
  read ((s.find name).map StoredTable.schema)

/-- The rows that plans read. -/
def provider (s : Store) : RowProvider := ⟨s.scan, s.query⟩

end Store

end TableQuery
