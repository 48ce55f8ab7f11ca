import TableQuery.Explain
import TableQuery.Operator.Aggregation
import TableQuery.Operator.Join
import TableQuery.Operator.Window

/-! # Operators

What a plan is lowered to: operators whose expressions read columns by position, in a tree whose
nodes carry the schemas of their rows. -/

namespace TableQuery

/-- An operator over batches. -/
inductive Operator where
  | scan (table : String)
  | sqlQuery (query : String)
  | values (batch : Batch)
  | project (exprs : List RowExpr)
  | filter (predicate : RowExpr)
  /-- The input's columns and then one for each window. -/
  | window (windows : List RowWindow)
  | join (j : RowJoin)
  | aggregate (a : RowAggregation)
  | sort (keys : List (SortKey RowExpr))
  | limit (limit : Option Nat) (offset : Nat)

namespace Operator

def name : Operator → String
  | scan _ => "Scan"
  | sqlQuery _ => "SqlQuery"
  | values _ => "Values"
  | project _ => "Project"
  | filter _ => "Filter"
  | window _ => "Window"
  | join _ => "HashJoin"
  | aggregate _ => "HashAggregate"
  | sort _ => "Sort"
  | limit _ _ => "Limit"

/-- A position as displays show it. -/
def positionText (i : Nat) : String := "#" ++ toString i

/-- The items of an operator's entry. -/
def explainItems (verbose : Bool) : Operator → List (String × ExplainValue)
  | scan table => [("table", .one table)]
  | sqlQuery query => [("query", .one query)]
  | values batch => [("num_rows", .one (toString batch.numRows))]
  | project exprs => [("projections", .many (exprs.map RowExpr.text))]
  | filter predicate => [("predicate", .one predicate.text)]
  | window windows => [("windows", .many (windows.map RowWindow.text))]
  | join j =>
    [("join_type", .one j.kind.text), ("left_keys", .many (j.leftKeys.map positionText)),
        ("right_keys", .many (j.rightKeys.map positionText))]
      ++ optionalItem "residual" (j.residual.map RowExpr.text)
      ++ if verbose then [("outputs", .many (j.outputs.map RowSource.text))] else []
  | aggregate a =>
    [("group_by", .many (a.groupBy.map RowExpr.text)),
      ("aggregates", .many (a.aggregates.map RowAggregate.text))]
  | sort keys => [("expressions", .many (keys.map SortKey.rowText))]
  | limit n offset =>
    optionalItem "limit" (n.map toString) ++ [("offset", .one (toString offset))]

/-- The entry of an operator; a verbose one also shows the outputs of a join. -/
def explain (verbose : Bool) (op : Operator) : ExplainEntry :=
  .ofItems op.name (op.explainItems verbose)

end Operator

/-- A tree of operators. -/
inductive OperatorPlan where
  | node (op : Operator) (schema : Schema) (children : List OperatorPlan)

namespace OperatorPlan

instance : Inhabited OperatorPlan := ⟨node (.values .empty) .empty []⟩

def op : OperatorPlan → Operator
  | node op _ _ => op

def schema : OperatorPlan → Schema
  | node _ schema _ => schema

mutual

/-- The names of the operators, parents before children. -/
def names : OperatorPlan → List String
  | .node op _ children => op.name :: namesOfAll children

def namesOfAll : List OperatorPlan → List String
  | [] => []
  | p :: r => names p ++ namesOfAll r

end

mutual

/-- A line for each node, indented by its depth: the operator and the columns of its rows. -/
def linesAt (depth : Nat) : OperatorPlan → List String
  | .node op schema children =>
    ("".pushn ' ' (2 * depth) ++ (op.explain true).text ++ " -> " ++
      (ExplainValue.many (schema.fields.map fun (n, t) => n ++ ": " ++ t.text)).text) ::
      linesOfAll (depth + 1) children

def linesOfAll (depth : Nat) : List OperatorPlan → List String
  | [] => []
  | p :: r => linesAt depth p ++ linesOfAll depth r

end

def lines (p : OperatorPlan) : List String := p.linesAt 0

end OperatorPlan

end TableQuery
