import TableQuery.Relation.JoinPlanner
import TableQuery.Source

/-! # Tables

A `Table` is a plan with the suffixes that its joins use. Every step checks its expressions against
the schema of the table and then adds one node on top of the plan; a join of a table with itself
first puts a view on top of the right side, so that both sides have references of their own. The
checks are functions of the schema alone (`Table.filterSchema` and the like), apart from the
building of nodes. -/

namespace TableQuery

/-- A relation under construction. -/
structure Table where
  root : Plan
  /-- The suffixes of joins that do not give their own. -/
  suffixes : JoinSuffixes

namespace Table

/-! ### Leaves -/

/-- The leaf of an operation without inputs. -/
def leaf (op : Operation) (schema : Schema) : Build Table := do
  return ⟨← Build.node op schema [], .standard⟩

/-- A table of the store. -/
def scan (name : String) (schema : Schema) : Build Table := leaf (.scan name) schema

/-- The rows of a query in SQL. -/
def sqlQuery (query : String) (schema : Schema) : Build Table := leaf (.sqlQuery query) schema

/-- Rows held in the plan, their types being inferred. -/
def memory (data : Source) : Build Table := do
  let schema ← Build.ofResult data.inferSchema
  let batch ← Build.ofResult (data.toBatch schema)
  leaf (.values batch) schema

variable (t : Table)

def schema : Schema := t.root.schema

def ref : TableRef := t.root.ref

/-- The table with other suffixes. -/
def withSuffixes (suffixes : JoinSuffixes) : Table := { t with suffixes }

/-- Whether two handles name one relation. -/
def same (a b : Table) : Bool := a.ref == b.ref

/-- A column of this table, which must exist. -/
def col (name : String) : Result Expr := do
  let _ ← t.schema.typeOf name
  return .column (some t.ref) name

/-- A node on top of the table. -/
def derive (op : Operation) (schema : Schema) : Build Table := do
  return ⟨← Build.node op schema [t.root], t.suffixes⟩

/-! ### Checks -/

/-- Whether an expression has to be computed from more than one row. -/
def readsManyRows (e : Expr) : Bool := e.hasAggregate || e.hasWindow

/-- The schema of some output columns, whose names must differ. -/
def outputSchema (fields : List (String × DataType)) : Result Schema :=
  match Schema.firstRepeated? (fields.map Prod.fst) with
  | some n => .error (.table (.duplicateOutput n))
  | none => Schema.ofFields fields

/-- The output column of an expression. -/
def outputField (schema : Schema) (e : Expr) : Result (String × DataType) :=
  (e.typeIn schema).map (e.outputName, ·)

/-- The schema of the rows that a predicate keeps. -/
def filterSchema (schema : Schema) (predicate : Expr) : Result Schema := do
  let t ← predicate.typeIn schema
  if !(t.isBoolean || t.isNull) then .error (.table (.filterNotBoolean t predicate))
  else if readsManyRows predicate then .error (.table (.filterAggregates predicate))
  else return schema

/-- The output column of a projected expression. -/
def projectedField (schema : Schema) (e : Expr) : Result (String × DataType) :=
  if e.hasAggregate then .error (.table (.aggregateProjected e)) else outputField schema e

/-- The schema of a list of projected expressions. -/
def projectSchema (schema : Schema) (exprs : List Expr) : Result Schema := do
  if exprs.isEmpty then .error (.table .emptyProjection)
  else outputSchema (← exprs.mapM (projectedField schema))

/-- The output column of a group key. -/
def groupField (schema : Schema) (key : Expr) : Result (String × DataType) :=
  if readsManyRows key then .error (.table (.groupKeyAggregates key)) else outputField schema key

/-- The output column of a metric, which must be an aggregate. -/
def metricField (schema : Schema) (metric : Expr) : Result (String × DataType) :=
  match metric.unaliased with
  | .aggregate _ _ => outputField schema metric
  | _ => .error (.table (.metricNotAggregate metric))

/-- The schema of the groups of some keys with their metrics. -/
def aggregateSchema (schema : Schema) (groupBy metrics : List Expr) : Result Schema := do
  let keys ← groupBy.mapM (groupField schema)
  let values ← metrics.mapM (metricField schema)
  if (keys ++ values).isEmpty then .error (.table .emptyAggregation)
  else outputSchema (keys ++ values)

/-- A sort key has a type and reads one row only. -/
def checkSortKey (schema : Schema) (key : SortKey Expr) : Result Unit :=
  if readsManyRows key.expr then .error (.table (.sortKeyAggregates key.expr))
  else (key.expr.typeIn schema).map fun _ => ()

/-! ### Steps -/

/-- The rows for which a predicate is true. -/
def filter (predicate : Expr) : Build Table := do
  let schema ← Build.ofResult (filterSchema t.schema predicate)
  t.derive (.filter predicate) schema

/-- A column for each expression. -/
def select (exprs : List Expr) : Build Table := do
  let schema ← Build.ofResult (projectSchema t.schema exprs)
  t.derive (.project exprs) schema

/-- The columns of these names. -/
def selectColumns (names : List String) : Build Table := do
  let exprs ← Build.ofResult (names.mapM t.col)
  t.select exprs

/-- The columns of these names, each replaced by the first remaining expression of its name, and
then the expressions that replace none. -/
def replacing : List String → List Expr → List Expr
  | [], exprs => exprs
  | n :: r, exprs =>
    match exprs.find? (·.outputName == n) with
    | some e => e :: replacing r (exprs.eraseP (·.outputName == n))
    | none => .col n :: replacing r exprs

/-- All columns, those with the name of an expression replaced by it and new ones added behind. -/
def mutate (exprs : List Expr) : Build Table := t.select (replacing t.schema.names exprs)

/-- All columns but those of these names, which must exist. -/
def drop (names : List String) : Build Table := do
  Build.ofResult (names.forM fun n => (t.schema.typeOf n).map fun _ => ())
  t.select ((t.schema.names.filter fun n => !names.contains n).map Expr.col)

/-- The same rows under a reference of their own. -/
def view : Build Table := t.derive (.project (t.schema.names.map Expr.col)) t.schema

/-- A join under given suffixes. -/
def joinWith (right : Table) (predicate : JoinPredicate) (kind : JoinKind)
    (suffixes : JoinSuffixes) : Build Table := do
  let isSelf := t.same right
  let right ← if isSelf then right.view else pure right
  let inputs : JoinInputs :=
    ⟨t.ref, t.schema, right.ref, right.schema, suffixes, if isSelf then some t.ref else none⟩
  let (join, schema) ← Build.ofResult (inputs.plan predicate kind)
  return ⟨← Build.node (.join join) schema [t.root, right.root], t.suffixes⟩

/-- A join under the suffixes of the left table. -/
def join (right : Table) (predicate : JoinPredicate) (kind : JoinKind) : Build Table :=
  t.joinWith right predicate kind t.suffixes

/-- One row for each group of rows with equal keys; a single row if there are no keys. -/
def aggregate (groupBy metrics : List Expr) : Build Table := do
  let schema ← Build.ofResult (aggregateSchema t.schema groupBy metrics)
  t.derive (.aggregate groupBy metrics) schema

/-- The rows in the order of some keys. -/
def orderBy (keys : List (SortKey Expr)) : Build Table := do
  Build.ofResult (keys.forM (checkSortKey t.schema))
  t.derive (.order keys) t.schema

/-- At most `limit` rows behind the first `offset` ones. -/
def limitOffset (limit : Option Nat) (offset : Nat) : Build Table :=
  t.derive (.limit limit offset) t.schema

def limit (n : Nat) : Build Table := t.limitOffset (some n) 0

/-- The `k` most frequent values of a column with their counts. -/
def topk (column : String) (k : Nat) : Build Table := do
  let key ← Build.ofResult (t.col column)
  let counts ← t.aggregate [key] [.named "count" .countStar]
  let sorted ← counts.orderBy [(Expr.col "count").descending]
  sorted.limit k

end Table

/-! ### Queries -/

/-- What the result of a query looks like. -/
inductive ResultShape where
  | table
  | column
  /-- A single value; limits do not apply. -/
  | scalar
  deriving DecidableEq

/-- A table with the shape of its result. -/
structure Query where
  table : Table
  shape : ResultShape

namespace Table

variable (t : Table)

/-- The single value of a metric over the whole table. -/
def reduce (metric : Expr) : Build Query := do return ⟨← t.aggregate [] [metric], .scalar⟩

/-- The number of rows. -/
def count : Build Query := t.reduce .countStar

/-- A single column. -/
def column (name : String) : Build Query := do
  let key ← Build.ofResult (t.col name)
  return ⟨← t.select [key], .column⟩

end Table

end TableQuery
