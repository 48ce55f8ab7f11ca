import TableQuery.Operator.Lower
import TableQuery.Relation.Table
import TableQuery.Session.Config
import TableQuery.Sql.Render

/-! # Compiling queries

A query is checked against what the backend can do, cut to the rows that the caller wants, written
as SQL and lowered to operators. A limit that the caller gives takes the place of one at the root
of the plan; the default limit only applies where the root is no limit. Queries for a single value
are never cut. -/

namespace TableQuery

/-- What a backend can do. -/
structure Capabilities where
  fullJoin : Bool
  dialect : Sql.Dialect

/-- The rows that a caller wants of a result. -/
inductive LimitChoice where
  /-- As many as the settings say. -/
  | default
  | rows (n : Nat)
  | unbounded

/-- A query ready to run. -/
structure CompiledQuery where
  sql : String
  plan : OperatorPlan
  schema : Schema
  shape : ResultShape
  /-- The limit at the root, if there is one. -/
  limit : Option Nat

namespace Plan

/-- The plan cut to a number of rows. -/
def cut (p : Plan) (n : Nat) : Build Plan := Build.node (.limit (some n) 0) p.schema [p]

/-- The plan cut to what the caller wants. -/
def withLimit (p : Plan) (defaultLimit : Option Nat) (choice : LimitChoice) : Build Plan :=
  match choice, p with
  | .rows n, .node (.limit _ offset) _ schema children =>
    Build.node (.limit (some n) offset) schema children
  | .rows n, p => p.cut n
  | .default, .node (.limit m offset) ref schema children =>
    pure (.node (.limit m offset) ref schema children)
  | .default, p =>
    match defaultLimit with
    | some n => p.cut n
    | none => pure p
  | .unbounded, p => pure p

/-- The limit at the root. -/
def rootLimit? : Plan → Option Nat
  | .node (.limit n _) _ _ _ => n
  | _ => none

end Plan

namespace Query

/-- The query for a backend under some settings. -/
def compile (q : Query) (capabilities : Capabilities) (config : Config) (choice : LimitChoice) :
    Build CompiledQuery := do
  if q.table.root.hasFullJoin && !capabilities.fullJoin then
    Build.ofResult (.error (.plan .noFullJoin))
  else
    let root ←
      if q.shape = .scalar then pure q.table.root
      else q.table.root.withLimit (config.defaultLimit.map (·.val.toNat)) choice
    let sql ← Build.ofResult (capabilities.dialect.render .statement root)
    let plan ← Build.ofResult (OperatorPlan.ofPlan root)
    return ⟨sql, plan, root.schema, q.shape, root.rootLimit?⟩

end Query

end TableQuery
