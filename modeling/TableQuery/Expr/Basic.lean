import TableQuery.Scalar.Basic

/-! # Expressions

Expressions over the columns of a relation: literals, arithmetic, comparison, the three-valued
connectives, aggregates and windows. A column may carry the reference of the table it was taken
from, which tells the two sides of a join apart. The second half builds expressions; the builders
of connectives merge nested ones of the same kind. -/

namespace TableQuery

/-- The identity of a node of a plan. -/
structure TableRef where
  index : Nat
  deriving DecidableEq

namespace TableRef

def text (r : TableRef) : String := "#" ++ toString r.index

end TableRef

/-- The arithmetic operators; `mod` is the remainder of truncated division. -/
inductive ArithOp where
  | add | sub | mul | div | mod
  deriving DecidableEq

namespace ArithOp

def all : List ArithOp := [add, sub, mul, div, mod]

def symbol : ArithOp → String
  | add => "+" | sub => "-" | mul => "*" | div => "/" | mod => "%"

end ArithOp

/-- The comparison operators. -/
inductive CompareOp where
  | eq | notEq | lt | ltEq | gt | gtEq
  deriving DecidableEq

namespace CompareOp

def all : List CompareOp := [eq, notEq, lt, ltEq, gt, gtEq]

def symbol : CompareOp → String
  | eq => "=" | notEq => "!=" | lt => "<" | ltEq => "<=" | gt => ">" | gtEq => ">="

/-- The operator for the exchanged sides of a comparison. -/
def flip : CompareOp → CompareOp
  | eq => eq | notEq => notEq | lt => gt | ltEq => gtEq | gt => lt | gtEq => ltEq

/-- Whether the operator holds of values in this order. -/
def holds : CompareOp → Ordering → Bool
  | eq, o => o == .eq
  | notEq, o => o != .eq
  | lt, o => o == .lt
  | ltEq, o => o != .gt
  | gt, o => o == .gt
  | gtEq, o => o != .lt

theorem holds_flip_swap (op : CompareOp) (o : Ordering) : op.flip.holds o.swap = op.holds o := by
  cases op <;> cases o <;> rfl

end CompareOp

/-- The connectives of three-valued logic. -/
inductive Connective where
  | and | or
  deriving DecidableEq

namespace Connective

def symbol : Connective → String
  | and => "AND" | or => "OR"

end Connective

/-- The operators with one operand. -/
inductive UnaryOp where
  | not | negate | isNull | isNotNull
  deriving DecidableEq

namespace UnaryOp

def all : List UnaryOp := [not, negate, isNull, isNotNull]

/-- The operator around the text of its operand. -/
def around (op : UnaryOp) (operand : String) : String :=
  match op with
  | not => "NOT " ++ operand
  | negate => "-" ++ operand
  | isNull => operand ++ " IS NULL"
  | isNotNull => operand ++ " IS NOT NULL"

end UnaryOp

/-- The aggregate functions. `countStar` counts rows, `count` values that are not null. -/
inductive AggregateFunction where
  | countStar | count | countDistinct | sum | mean | min | max
  deriving DecidableEq

namespace AggregateFunction

def all : List AggregateFunction := [countStar, count, countDistinct, sum, mean, min, max]

/-- The name that calls are written with. -/
def name : AggregateFunction → String
  | countStar | count | countDistinct => "count"
  | sum => "sum" | mean => "avg" | min => "min" | max => "max"

/-- The function written without an input. -/
def text : AggregateFunction → String
  | countStar => "count(*)"
  | countDistinct => "count(DISTINCT)"
  | f => f.name

/-- A call written with the text of its input, if it has one. -/
def call (f : AggregateFunction) : Option String → String
  | none => "count(*)"
  | some input => if f = countDistinct then "count(DISTINCT " ++ input ++ ")"
    else f.name ++ "(" ++ input ++ ")"

end AggregateFunction

/-- A sort key over expressions of type `α`. The place of nulls does not depend on the
direction. -/
structure SortKey (α : Type) where
  expr : α
  descending : Bool
  nullsFirst : Bool

namespace SortKey

/-- The direction and the place of nulls in words. -/
def directionText {α : Type} (k : SortKey α) : String :=
  (if k.descending then "DESC" else "ASC") ++ " " ++
    (if k.nullsFirst then "NULLS FIRST" else "NULLS LAST")

end SortKey

/-- What a window computes for each row: its zero-based place in the partition, or an aggregate
over the partition. -/
inductive WindowFunction where
  | rowNumber
  | aggregate (f : AggregateFunction)
  deriving DecidableEq

/-- A scalar expression over the columns of some relation. -/
inductive Expr where
  | column (table : Option TableRef) (name : String)
  | literal (value : Scalar)
  | arith (op : ArithOp) (left right : Expr)
  | compare (op : CompareOp) (left right : Expr)
  | conj (op : Connective) (operands : List Expr)
  | unary (op : UnaryOp) (operand : Expr)
  | aggregate (f : AggregateFunction) (input : Option Expr)
  | window (f : WindowFunction) (input : Option Expr) (partitionBy : List Expr)
      (orderBy : List (SortKey Expr))
  | aliased (name : String) (expr : Expr)

namespace Expr

instance : Inhabited Expr := ⟨literal .null⟩

/-! ### Builders -/

/-- A column by name. -/
def col (name : String) : Expr := column none name

/-- The number of rows. -/
def countStar : Expr := aggregate .countStar none

/-- The place of a row in an unordered window over all rows. -/
def rowNumber : Expr := window .rowNumber none [] []

/-- The operands that an expression contributes to a connective. -/
def operandsOf (op : Connective) : Expr → List Expr
  | conj o es => if o = op then es else [conj o es]
  | e => [e]

/-- A connective over two expressions, merging those that are the same connective. -/
def combine (op : Connective) (a b : Expr) : Expr := conj op (a.operandsOf op ++ b.operandsOf op)

def and (a b : Expr) : Expr := combine .and a b

def or (a b : Expr) : Expr := combine .or a b

/-- The expression under a name, in place of a name it had. -/
def named (name : String) : Expr → Expr
  | aliased _ e => aliased name e
  | e => aliased name e

/-- The expression without its names. -/
def unaliased : Expr → Expr
  | aliased _ e => unaliased e
  | e => e

def ascending (e : Expr) : SortKey Expr := ⟨e, false, false⟩

def descending (e : Expr) : SortKey Expr := ⟨e, true, false⟩

end Expr

end TableQuery
