import TableQuery.Relation.Plan
import TableQuery.Sql.Literal
import TableQuery.Sql.TypeName

/-! # Plans in SQL

Every node is written as a SELECT over its inputs, which stand in its FROM as derived tables under
the alias `t<ref>`. A limit is appended to the SELECT of its input, so that it applies behind that
SELECT's ordering. The row order of a derived table is not kept, so a filter or projection repeats
the ordering of its input (`Plan.ordering?`); an ordering directly below it is not written as a
SELECT of its own. -/

namespace TableQuery

/-! ### Ordering -/

/-- Whether a projection passes a column on under its own name. -/
def Expr.passesOn (exprs : List Expr) (name : String) : Bool :=
  exprs.any fun e =>
    match e.unaliased with
    | .column _ n => n == name && e.outputName == name
    | _ => false

namespace Plan

mutual

/-- The sort keys by which the rows of a plan are ordered, if its SELECT leaves them ordered. A
projection keeps the ordering when it passes on every column that the keys read. -/
def ordering? : Plan → Option (List (SortKey Expr))
  | .node op _ _ children =>
    match op with
    | .order keys => some keys
    | .filter _ | .limit _ _ => orderingOfFirst? children
    | .project exprs => do
      let keys ← orderingOfFirst? children
      if keys.all fun k => k.expr.columns.all fun c => Expr.passesOn exprs c.name then some keys
      else none
    | _ => none

def orderingOfFirst? : List Plan → Option (List (SortKey Expr))
  | [] => none
  | p :: _ => ordering? p

end

end Plan

namespace Sql

/-- The alias of a node. -/
def tableAlias (ref : TableRef) : String := "t" ++ toString ref.index

/-- Where the columns of an expression are found. -/
inductive NameScope where
  /-- In a single input, by name. -/
  | single
  /-- In a single input, under its alias. -/
  | qualified (ref : TableRef)
  /-- In one of the inputs of a join, under its alias. -/
  | join (leftRef : TableRef) (left : Schema) (rightRef : TableRef) (right : Schema)

namespace NameScope

/-- The input of a join that a column is read from. -/
def sideOf (leftRef : TableRef) (left : Schema) (rightRef : TableRef) (right : Schema)
    (c : ColumnRef) : Result TableRef :=
  if c.table = some leftRef then .ok leftRef
  else if c.table = some rightRef then .ok rightRef
  else if left.contains c.name then .ok leftRef
  else if right.contains c.name then .ok rightRef
  else .error (.join (.columnNotFound c.name))

end NameScope

namespace Dialect

variable (d : Dialect)

/-- A name under the alias of a node. -/
def qualifiedName (ref : TableRef) (name : String) : String := tableAlias ref ++ "." ++ d.name name

/-- A column. -/
def column (scope : NameScope) (c : ColumnRef) : Result String :=
  match scope with
  | .single => .ok (d.name c.name)
  | .qualified ref => .ok (d.qualifiedName ref c.name)
  | .join leftRef left rightRef right =>
    (NameScope.sideOf leftRef left rightRef right c).map (d.qualifiedName · c.name)

/-- Comparison operators, of which one is written otherwise than in displays. -/
def comparison : CompareOp → String
  | .notEq => "<>"
  | op => op.symbol

/-- An aggregate call. -/
def aggregateCall (f : AggregateFunction) (input : Option String) : String :=
  if f = .countStar then "count(*)" else f.call input

/-- The inside of a window specification. -/
def windowParts (partitions keys : List String) : String :=
  " ".intercalate
    ((if partitions.isEmpty then [] else ["PARTITION BY " ++ ", ".intercalate partitions]) ++
      if keys.isEmpty then [] else ["ORDER BY " ++ ", ".intercalate keys])

mutual

/-- An expression, in parentheses unless it is a column, a literal or a call. Row numbers of SQL
start at one. -/
def expr (scope : NameScope) : Expr → Result String
  | .column table name => d.column scope ⟨table, name⟩
  | .literal v => .ok (literal v)
  | .arith op a b => do
    let x ← expr scope a
    let y ← expr scope b
    return "(" ++ x ++ " " ++ op.symbol ++ " " ++ y ++ ")"
  | .compare op a b => do
    let x ← expr scope a
    let y ← expr scope b
    return "(" ++ x ++ " " ++ comparison op ++ " " ++ y ++ ")"
  | .conj op es => do
    return "(" ++ (" " ++ op.symbol ++ " ").intercalate (← exprs scope es) ++ ")"
  | .unary op e => do return "(" ++ op.around (← expr scope e) ++ ")"
  | .aggregate f input => do return aggregateCall f (← optionalExpr scope input)
  | .window f input ps ks => do
    let partitions ← exprs scope ps
    let keys ← sortKeys scope ks
    let window := windowParts partitions keys
    match f with
    | .rowNumber => return "(row_number() OVER (" ++ window ++ ") - 1)"
    | .aggregate f =>
      return aggregateCall f (← optionalExpr scope input) ++ " OVER (" ++ window ++ ")"
  | .aliased _ e => expr scope e

def optionalExpr (scope : NameScope) : Option Expr → Result (Option String)
  | none => .ok none
  | some e => do return some (← expr scope e)

def exprs (scope : NameScope) : List Expr → Result (List String)
  | [] => .ok []
  | e :: r => do
    let x ← expr scope e
    let xs ← exprs scope r
    return x :: xs

def sortKeys (scope : NameScope) : List (SortKey Expr) → Result (List String)
  | [] => .ok []
  | ⟨e, descending, nullsFirst⟩ :: r => do
    let x ← expr scope e
    let xs ← sortKeys scope r
    return (x ++ " " ++ (⟨(), descending, nullsFirst⟩ : SortKey Unit).directionText) :: xs

end

/-- An item of a SELECT, with its name unless that is how it is written anyway. -/
def selectItem (e : Expr) : Result String := do
  let x ← d.expr .single e.unaliased
  let name := d.name e.outputName
  return if x = name then x else x ++ " AS " ++ name

/-- The items of a SELECT. -/
def selectItems (es : List Expr) : Result String := do
  return ", ".intercalate (← es.mapM d.selectItem)

/-- An ORDER BY with its keys. -/
def orderBy (scope : NameScope) (keys : List (SortKey Expr)) : Result String := do
  return " ORDER BY " ++ ", ".intercalate (← d.sortKeys scope keys)

/-- An ORDER BY that repeats the ordering of an input, if it has one. -/
def repeatedOrderBy (input : TableRef) (keys : Option (List (SortKey Expr))) : Result String :=
  match keys with
  | some (k :: ks) => d.orderBy (.qualified input) (k :: ks)
  | _ => .ok ""

/-- A GROUP BY, left out when there are no keys. -/
def groupBy (keys : List Expr) : Result String :=
  if keys.isEmpty then .ok ""
  else do return " GROUP BY " ++ ", ".intercalate (← keys.mapM fun k => d.expr .single k.unaliased)

/-- The bounds of a limit. -/
def limitClause (limit : Option Nat) (offset : Nat) : String :=
  (match limit with
  | some n => " LIMIT " ++ toString n
  | none => "") ++ if offset = 0 then "" else " OFFSET " ++ toString offset

/-! ### Rows held in a plan -/

/-- A row of literals. -/
def valuesRow (r : Row) : String := "(" ++ ", ".intercalate (r.map literal) ++ ")"

/-- A column of no rows. -/
def emptyColumn (field : String × DataType) : Result String := do
  return "CAST(NULL AS " ++ (← d.typeName field.2) ++ ") AS " ++ d.name field.1

/-- Rows as a derived table. A VALUES list has at least one row, so no rows are written as a SELECT
of typed columns that is cut off. -/
def values (batch : Batch) (schema : Schema) (ref : TableRef) : Result String :=
  if batch.rows.isEmpty then do
    let columns ← schema.fields.mapM d.emptyColumn
    return "(SELECT " ++ ", ".intercalate columns ++ " LIMIT 0) AS " ++ tableAlias ref
  else
    .ok ("(VALUES " ++ ", ".intercalate (batch.rows.map valuesRow) ++ ") AS " ++ tableAlias ref ++
      " (" ++ ", ".intercalate (schema.names.map d.name) ++ ")")

/-! ### Joins -/

/-- The predicate of a join, its equalities before the residual. -/
def joinPredicate (j : Join) (left right : Plan) : Result String := do
  let equalities := j.conditions.map fun c =>
    d.qualifiedName left.ref c.left ++ " = " ++ d.qualifiedName right.ref c.right
  let residual ← j.residual.toList.mapM
    (d.expr (.join left.ref left.schema right.ref right.schema))
  let parts := equalities ++ residual
  return if parts.isEmpty then "TRUE" else " AND ".intercalate parts

/-- An output column of a join. -/
def joinOutput (left right : TableRef) (o : JoinOutput) : String :=
  let source :=
    match o.source with
    | .left n => d.qualifiedName left n
    | .right n => d.qualifiedName right n
    | .coalesce l r =>
      "COALESCE(" ++ d.qualifiedName left l ++ ", " ++ d.qualifiedName right r ++ ")"
  source ++ " AS " ++ d.name o.name

/-- The statement of a join over its inputs, which are given as they stand in a FROM. -/
def joinStatement (j : Join) (outputs left right on : String) : String :=
  let select := "SELECT " ++ outputs ++ " FROM " ++ left
  let joined (how : String) := select ++ " " ++ how ++ " " ++ right ++ " ON " ++ on
  let matching := "EXISTS (SELECT 1 FROM " ++ right ++ " WHERE " ++ on ++ ")"
  match j.kind with
  | .semi => select ++ " WHERE " ++ matching
  | .anti => select ++ " WHERE NOT " ++ matching
  | .inner =>
    if j.conditions.isEmpty && j.residual.isNone then select ++ " CROSS JOIN " ++ right
    else joined "INNER JOIN"
  | .left => joined "LEFT JOIN"
  | .right => joined "RIGHT JOIN"
  | .full => joined "FULL OUTER JOIN"

end Dialect

/-! ### Nodes -/

/-- How a node is wanted. -/
inductive Form where
  /-- As a statement. -/
  | statement
  /-- As a derived table in a FROM. -/
  | source
  deriving DecidableEq

namespace Form

/-- A node that stands in a FROM by itself. -/
def ofRelation (form : Form) (relation : String) : String :=
  match form with
  | statement => "SELECT * FROM " ++ relation
  | source => relation

/-- A node that is written as a SELECT. -/
def ofStatement (form : Form) (ref : TableRef) (sql : String) : String :=
  match form with
  | statement => sql
  | source => "(" ++ sql ++ ") AS " ++ tableAlias ref

end Form

namespace Dialect

/-- A plan as a statement or as a derived table. -/
def render (d : Dialect) (form : Form) : Plan → Result String
  | .node (.scan table) ref _ _ => .ok (form.ofRelation (d.name table ++ " AS " ++ tableAlias ref))
  | .node (.sqlQuery query) ref _ _ =>
    .ok (form.ofRelation ("(" ++ query ++ ") AS " ++ tableAlias ref))
  | .node (.values batch) ref schema _ => (d.values batch schema ref).map form.ofRelation
  | .node (.project exprs) ref _ [.node (.order keys) _ _ [input]] => do
    let items ← d.selectItems exprs
    let source ← render d .source input
    let order ← d.repeatedOrderBy input.ref (some keys)
    return form.ofStatement ref ("SELECT " ++ items ++ " FROM " ++ source ++ order)
  | .node (.project exprs) ref _ [input] => do
    let items ← d.selectItems exprs
    let source ← render d .source input
    let order ← d.repeatedOrderBy input.ref input.ordering?
    return form.ofStatement ref ("SELECT " ++ items ++ " FROM " ++ source ++ order)
  | .node (.filter predicate) ref _ [.node (.order keys) _ _ [input]] => do
    let source ← render d .source input
    let condition ← d.expr .single predicate
    let order ← d.repeatedOrderBy input.ref (some keys)
    return form.ofStatement ref ("SELECT * FROM " ++ source ++ " WHERE " ++ condition ++ order)
  | .node (.filter predicate) ref _ [input] => do
    let source ← render d .source input
    let condition ← d.expr .single predicate
    let order ← d.repeatedOrderBy input.ref input.ordering?
    return form.ofStatement ref ("SELECT * FROM " ++ source ++ " WHERE " ++ condition ++ order)
  | .node (.aggregate keys metrics) ref _ [input] => do
    let items ← d.selectItems (keys ++ metrics)
    let source ← render d .source input
    let groups ← d.groupBy keys
    return form.ofStatement ref ("SELECT " ++ items ++ " FROM " ++ source ++ groups)
  | .node (.order keys) ref _ [input] => do
    let source ← render d .source input
    let order ← d.orderBy .single keys
    return form.ofStatement ref ("SELECT * FROM " ++ source ++ order)
  | .node (.limit n offset) ref _ [.node (.limit m skipped) inner schema children] => do
    let source ← render d .source (.node (.limit m skipped) inner schema children)
    let order ← d.repeatedOrderBy inner
      (Plan.node (.limit m skipped) inner schema children).ordering?
    return form.ofStatement ref ("SELECT * FROM " ++ source ++ order ++ limitClause n offset)
  | .node (.limit n offset) ref _ [input] => do
    let sql ← render d .statement input
    return form.ofStatement ref (sql ++ limitClause n offset)
  | .node (.join j) ref _ [left, right] => do
    let on ← d.joinPredicate j left right
    let outputs := ", ".intercalate (j.outputs.map (d.joinOutput left.ref right.ref))
    let leftSource ← render d .source left
    let rightSource ← render d .source right
    return form.ofStatement ref (joinStatement j outputs leftSource rightSource on)
  | .node (.join _) _ _ _ => .error (.plan (.twoChildren none))
  | .node _ _ _ children => .error (.plan (.oneSource children.length))

end Dialect

end Sql

end TableQuery
