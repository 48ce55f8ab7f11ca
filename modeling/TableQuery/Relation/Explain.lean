import TableQuery.Explain
import TableQuery.Relation.Plan

/-! # Explaining plans

The entry of an operation shows what it does; a verbose one also shows where a join takes its
columns from, and the reference and schema of every node. -/

namespace TableQuery

namespace Operation

/-- The items of an operation's entry. -/
def explainItems (verbose : Bool) : Operation → List (String × ExplainValue)
  | scan table => [("table", .one table)]
  | sqlQuery query => [("query", .one query)]
  | values batch => [("num_rows", .one (toString batch.numRows))]
  | project exprs => [("projections", .many (exprs.map Expr.text))]
  | filter predicate => [("predicate", .one predicate.text)]
  | join j =>
    [("join_type", .one j.kind.text), ("conditions", .many (j.conditions.map JoinCondition.text))]
      ++ optionalItem "residual" (j.residual.map Expr.text)
      ++ if verbose then [("outputs", .many (j.outputs.map JoinOutput.text))] else []
  | aggregate groupBy metrics =>
    ("aggregates", .many (metrics.map Expr.text)) ::
      if groupBy.isEmpty then [] else [("group_by", .many (groupBy.map Expr.text))]
  | order keys => [("expressions", .many (keys.map SortKey.text))]
  | limit n offset =>
    optionalItem "limit" (n.map toString) ++
      if offset = 0 then [] else [("offset", .one (toString offset))]

end Operation

/-- The columns of a schema, each with its type. -/
def Schema.fieldTexts (s : Schema) : List String := s.fields.map fun (n, t) => n ++ ": " ++ t.text

namespace Plan

/-- The items that a verbose entry has besides those of its operation. -/
def nodeItems (ref : TableRef) (schema : Schema) : List (String × ExplainValue) :=
  [("table_ref", .one ref.text), ("schema", .many schema.fieldTexts)]

mutual

def explain (verbose : Bool) : Plan → Explanation
  | .node op ref schema children =>
    .node
      (.ofItems op.name
        (op.explainItems verbose ++ if verbose then nodeItems ref schema else []))
      (explainAll verbose children)

def explainAll (verbose : Bool) : List Plan → List Explanation
  | [] => []
  | p :: r => explain verbose p :: explainAll verbose r

end

end Plan

end TableQuery
