import TableQuery.Batch
import TableQuery.Schema
import TableQuery.Expr.Traverse

/-! # Plans

A plan is a tree of relational operations. Every node has an identity, the schema of its rows and
the nodes it reads. Which operation may have how many inputs is not part of the type: a node built
by hand may have too few or too many, and lowering it then fails. -/

namespace TableQuery

/-- The kinds of join. A semi join keeps the left rows that have a match, an anti join those that
have none. -/
inductive JoinKind where
  | inner | left | right | full | semi | anti
  deriving DecidableEq

namespace JoinKind

def text : JoinKind → String
  | inner => "INNER" | left => "LEFT" | right => "RIGHT" | full => "FULL"
  | semi => "LEFT SEMI" | anti => "LEFT ANTI"

/-- Whether only left columns come out. -/
def leftOnly : JoinKind → Bool
  | semi | anti => true
  | _ => false

/-- Whether left columns may be filled with nulls. -/
def nullsLeft : JoinKind → Bool
  | right | full => true
  | _ => false

/-- Whether right columns may be filled with nulls. -/
def nullsRight : JoinKind → Bool
  | left | full => true
  | _ => false

end JoinKind

/-- A left column that has to equal a right one. -/
structure JoinCondition where
  left : String
  right : String
  deriving DecidableEq

namespace JoinCondition

/-- The condition seen from the other side. -/
def flip (c : JoinCondition) : JoinCondition := ⟨c.right, c.left⟩

/-- Whether both columns have one name; such a key comes out once. -/
def isSameName (c : JoinCondition) : Bool := c.left == c.right

def text (c : JoinCondition) : String := "left." ++ c.left ++ " = right." ++ c.right

end JoinCondition

/-- Where an output column of a join takes its values from. -/
inductive JoinSource where
  | left (name : String)
  | right (name : String)
  /-- The left value, or the right one if that is null. -/
  | coalesce (left right : String)
  deriving DecidableEq

namespace JoinSource

def text : JoinSource → String
  | left n => "left." ++ n
  | right n => "right." ++ n
  | coalesce l r => "coalesce(left." ++ l ++ ", right." ++ r ++ ")"

end JoinSource

/-- A named output column of a join. -/
structure JoinOutput where
  name : String
  source : JoinSource
  deriving DecidableEq

namespace JoinOutput

def text (o : JoinOutput) : String := o.source.text ++ " AS " ++ o.name

end JoinOutput

/-- A join whose keys, remaining predicate and output columns are worked out. -/
structure Join where
  kind : JoinKind
  conditions : List JoinCondition
  /-- What is left of the predicate; its columns carry the table of their side. -/
  residual : Option Expr
  outputs : List JoinOutput

/-- What a node does with its inputs. -/
inductive Operation where
  | scan (table : String)
  | sqlQuery (query : String)
  | values (batch : Batch)
  | project (exprs : List Expr)
  | filter (predicate : Expr)
  | join (j : Join)
  | aggregate (groupBy metrics : List Expr)
  | order (keys : List (SortKey Expr))
  | limit (limit : Option Nat) (offset : Nat)

namespace Operation

def name : Operation → String
  | scan _ => "Scan"
  | sqlQuery _ => "SqlQuery"
  | values _ => "Values"
  | project _ => "Project"
  | filter _ => "Filter"
  | join _ => "Join"
  | aggregate _ _ => "Aggregate"
  | order _ => "Order"
  | limit _ _ => "Limit"

end Operation

/-- A tree of operations. -/
inductive Plan where
  | node (op : Operation) (ref : TableRef) (schema : Schema) (children : List Plan)

namespace Plan

instance : Inhabited Plan := ⟨node (.values .empty) ⟨0⟩ .empty []⟩

def op : Plan → Operation
  | node op _ _ _ => op

def ref : Plan → TableRef
  | node _ ref _ _ => ref

def schema : Plan → Schema
  | node _ _ schema _ => schema

def children : Plan → List Plan
  | node _ _ _ children => children

mutual

/-- The node and all nodes below it, parents before children. -/
def nodes : Plan → List Plan
  | .node op ref schema children => .node op ref schema children :: nodesOfAll children

def nodesOfAll : List Plan → List Plan
  | [] => []
  | p :: r => nodes p ++ nodesOfAll r

end

/-- Whether a full join occurs anywhere. -/
def hasFullJoin (p : Plan) : Bool :=
  p.nodes.any fun q =>
    match q.op with
    | .join j => j.kind == .full
    | _ => false

end Plan

/-- Building plans: each new node takes the next free reference, and keeps it when a later step
fails. -/
abbrev Build (α : Type) := ExceptT Error (StateM TableRef) α

namespace Build

/-- The result of a computation that builds no nodes. -/
def ofResult {α : Type} (r : Result α) : Build α := ExceptT.mk (pure r)

/-- The next free reference. -/
def freshRef : Build TableRef := do
  let ref ← get
  set (⟨ref.index + 1⟩ : TableRef)
  return ref

/-- A new node. -/
def node (op : Operation) (schema : Schema) (children : List Plan) : Build Plan := do
  return .node op (← freshRef) schema children

end Build

end TableQuery
