import TableQuery.Session.Compile
import TableQuery.Session.Store

/-! # Sessions

A session is a store, the capabilities of its backend and settings, with the SQL of the queries
that were run and the reports of a verbose session. Operations are steps on this state: what was
built, run, reported or changed before an error stays. -/

namespace TableQuery

/-- The state of a session. -/
structure Session where
  capabilities : Capabilities
  config : Config
  store : Store
  /-- The SQL of the queries run so far. -/
  executed : List String
  /-- The reports of a verbose session. -/
  log : List String
  nextRef : TableRef

/-- The rows or the single value of a query, with the schema of its rows. -/
inductive QueryOutput where
  | batch (b : Batch)
  | scalar (v : Scalar)

structure QueryResult where
  schema : Schema
  output : QueryOutput

namespace QueryResult

def numRows (r : QueryResult) : Nat :=
  match r.output with
  | .batch b => b.numRows
  | .scalar _ => 1

/-- The rows of a result that is no single value. -/
def asBatch (r : QueryResult) : Result Batch :=
  match r.output with
  | .batch b => .ok b
  | .scalar _ => .error (.result .wantedRows)

/-- The single value of a result that is one. -/
def asScalar (r : QueryResult) : Result Scalar :=
  match r.output with
  | .scalar v => .ok v
  | .batch _ => .error (.result .wantedScalar)

/-- The output of a query of a given shape; one for a single value has one row and one column. -/
def outputOf (shape : ResultShape) (b : Batch) : Result QueryOutput :=
  if shape = .scalar then
    match b.types, b.rows with
    | [_], [row] => .ok (.scalar (row.headD .null))
    | _, _ => .error (.result (.notSingleValue b.numRows b.numColumns))
  else .ok (.batch b)

end QueryResult

/-- A step of a session. -/
abbrev SessionStep (α : Type) := ExceptT Error (StateM Session) α

namespace Session

/-- A new session with standard settings over an empty store. -/
def start (capabilities : Capabilities) : Session :=
  ⟨capabilities, .standard, .empty, [], [], ⟨0⟩⟩

/-! ### Parts of steps -/

/-- The result of a computation that does not depend on the session. -/
def ofResult {α : Type} (r : Result α) : SessionStep α := ExceptT.mk (pure r)

/-- Builds parts of plans with the references of the session. -/
def build {α : Type} (b : Build α) : SessionStep α := ExceptT.mk do
  let s ← get
  let (r, next) := b.run.run s.nextRef
  set { s with nextRef := next }
  return r

/-- Reports a text in a verbose session. -/
def report (text : String) : SessionStep Unit :=
  modify fun s => if s.config.verbose then { s with log := s.log ++ [text] } else s

/-- Changes the store, which is then what the change leaves, also if that fails. -/
def changeStore (change : Store → Result Unit × Store) : SessionStep Unit := ExceptT.mk do
  let s ← get
  let (r, store) := change s.store
  set { s with store }
  return r

/-- Runs a step under other settings and puts the present ones back. -/
def withConfig {α : Type} (config : Config) (step : SessionStep α) : SessionStep α := ExceptT.mk do
  let own := (← get).config
  modify fun s => { s with config }
  let r ← step.run
  modify fun s => { s with config := own }
  return r

/-! ### Tables -/

/-- The table under the suffix of the settings. -/
def withSuffix (t : Table) : SessionStep Table := do
  return t.withSuffixes (.ofRight (← get).config.joinSuffix)

/-- A table of the store. -/
def table (name : String) : SessionStep Table := do
  report ("DESCRIBE " ++ (← get).capabilities.dialect.name name)
  let schema ← ofResult ((← get).store.schemaOf name)
  withSuffix (← build (Table.scan name schema))

/-- The rows of a query in SQL. -/
def sql (query : String) : SessionStep Table := do
  report query
  let schema ← ofResult ((← get).store.querySchema query)
  withSuffix (← build (Table.sqlQuery query schema))

/-- The sorted members of one list that are not in another one. -/
def difference (a b : List String) : List String :=
  (a.filter fun n => !b.contains n).eraseDups.mergeSort fun m n => decide (m ≤ n)

/-- Data has exactly the columns of a schema. -/
def checkColumns (table : String) (schema : Schema) (data : Source) : Result Unit :=
  let missing := difference schema.names data.names
  let extra := difference data.names schema.names
  if missing.isEmpty && extra.isEmpty && data.names.length = schema.names.length then .ok ()
  else .error (.schema (.columnsDiffer table missing extra))

/-- Creates a table from a batch and gives it back. -/
def createWith (name : String) (schema : Schema) (data : Option Batch) (onConflict : OnConflict) :
    SessionStep Table := do
  if (← get).config.verbose then
    report (← ofResult ((← get).capabilities.dialect.createTable name schema))
  changeStore fun s => Store.lift (s.create name schema data onConflict)
  table name

/-- Creates an empty table. -/
def createTable (name : String) (schema : Schema) (onConflict : OnConflict) : SessionStep Table :=
  createWith name schema none onConflict

/-- Creates a table from client data, whose schema is inferred unless it is given. -/
def createTableFrom (name : String) (data : Source) (schema : Option Schema)
    (onConflict : OnConflict) : SessionStep Table := do
  let schema ← match schema with
    | some s => pure s
    | none => ofResult data.inferSchema
  ofResult (checkColumns name schema data)
  let batch ← ofResult (data.toBatch schema)
  createWith name schema (some batch) onConflict

/-- Adds client data to a table; columns are matched by name. -/
def insert (name : String) (data : Source) : SessionStep Unit := do
  let schema ← ofResult ((← get).store.schemaOf name)
  ofResult (checkColumns name schema data)
  let batch ← ofResult (data.toBatch schema)
  changeStore (·.insert name batch)

/-- Removes the rows of a table. -/
def truncate (name : String) : SessionStep Unit :=
  changeStore fun s => Store.lift (s.truncate name)

/-- Removes a table. -/
def drop (name : String) (force : Bool) : SessionStep Unit :=
  changeStore fun s => Store.lift (s.drop name force)

/-! ### Queries -/

/-- Compiles a query without running it. -/
def compile (q : Query) (choice : LimitChoice) : SessionStep CompiledQuery := do
  let s ← get
  build (q.compile s.capabilities s.config choice)

/-- Runs a compiled query on the store. -/
def run (q : CompiledQuery) : SessionStep Batch := do
  modify fun s => { s with executed := s.executed ++ [q.sql] }
  ofResult (q.plan.run (← get).store.provider)

/-- Compiles and runs a query. -/
def execute (q : Query) (choice : LimitChoice) : SessionStep QueryResult := do
  let compiled ← compile q choice
  report compiled.sql
  let batch ← run compiled
  if batch.numColumns ≠ compiled.schema.size then
    ofResult (.error (.result (.columnCount compiled.schema.size batch.numColumns)))
  else return ⟨compiled.schema, ← ofResult (QueryResult.outputOf compiled.shape batch)⟩

/-! ### Settings -/

/-- Changes a setting. -/
def setSetting (name : String) (v : Scalar) : SessionStep Unit := do
  let config ← ofResult ((← get).config.set name v)
  modify fun s => { s with config }

/-- Puts a setting back to its default. -/
def resetSetting (name : String) : SessionStep Unit := do
  let config ← ofResult ((← get).config.reset name)
  modify fun s => { s with config }

/-- The value of a setting. -/
def getSetting (name : String) : SessionStep Scalar := do
  ofResult ((← get).config.get name)

/-- Runs a step with one setting changed for its time. -/
def withSetting {α : Type} (name : String) (v : Scalar) (step : SessionStep α) :
    SessionStep α := do
  withConfig (← ofResult ((← get).config.set name v)) step

end Session

end TableQuery
