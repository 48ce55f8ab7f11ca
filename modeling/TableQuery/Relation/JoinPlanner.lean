import TableQuery.Relation.Plan
import TableQuery.Expr.Typing

/-! # Planning joins

A join predicate is split into equalities of a left and a right column and a residual. Each column
is assigned to a side: by the table it carries, else by the only side that has its name. The output
columns are the left ones and then the right ones; a key with one name on both sides comes out
once, and other names that occur on both sides get a suffix. -/

namespace TableQuery

/-- What two relations are joined on. -/
inductive JoinPredicate where
  /-- Equalities of left and right columns. -/
  | columns (pairs : List (String × String))
  | expression (e : Expr)
  /-- All pairs of rows. -/
  | cross

/-- What is appended to names that occur on both sides. -/
structure JoinSuffixes where
  left : String
  right : String
  deriving DecidableEq

namespace JoinSuffixes

/-- Left names stay as they are. -/
def ofRight (suffix : String) : JoinSuffixes := ⟨"", suffix⟩

def standard : JoinSuffixes := ofRight "_right"

end JoinSuffixes

/-- A side of a join. -/
inductive Side where
  | left | right
  deriving DecidableEq

/-- The two relations of a join. -/
structure JoinInputs where
  leftRef : TableRef
  left : Schema
  rightRef : TableRef
  right : Schema
  suffixes : JoinSuffixes
  /-- The table that is joined with itself; its columns may belong to either side. -/
  selfRef : Option TableRef

namespace JoinInputs

variable (inputs : JoinInputs)

/-! ### Conditions -/

/-- The condition of a pair of names, each of which must be a column of its side. -/
def conditionOfPair (pair : String × String) : Result JoinCondition :=
  let (l, r) := pair
  match inputs.left.contains l, inputs.right.contains r with
  | true, true => .ok ⟨l, r⟩
  | false, false => .error (.join (.keyNotFound l r))
  | false, true => .error (.join (.keyNotInLeft l inputs.left.names))
  | true, false => .error (.join (.keyNotInRight r inputs.right.names))

/-- Whether a column belongs to a table that is joined with itself. -/
def isSelfColumn (c : ColumnRef) : Bool := c.table.isSome && c.table == inputs.selfRef

/-- The side of a column. -/
def side (c : ColumnRef) : Result Side :=
  let inLeft := inputs.left.contains c.name
  let inRight := inputs.right.contains c.name
  if inputs.isSelfColumn c then .error (.join (.ambiguousSelf c.name))
  else if c.table = some inputs.leftRef ∧ inLeft then .ok .left
  else if c.table = some inputs.rightRef ∧ inRight then .ok .right
  else
    match inLeft, inRight with
    | true, false => .ok .left
    | false, true => .ok .right
    | true, true => .error (.join (.ambiguous c.name))
    | false, false => .error (.join (.columnNotFound c.name))

/-- The condition that a conjunct amounts to, if it equates a left and a right column. In an
equality of two columns of a table joined with itself the first one is the left one. -/
def conditionOfConjunct (e : Expr) : Result (Option JoinCondition) :=
  match e with
  | .compare .eq a b =>
    match a.unaliased, b.unaliased with
    | .column s x, .column t y =>
      if inputs.isSelfColumn ⟨s, x⟩ && inputs.isSelfColumn ⟨t, y⟩ then .ok (some ⟨x, y⟩)
      else do
        match ← inputs.side ⟨s, x⟩, ← inputs.side ⟨t, y⟩ with
        | .left, .right => return some ⟨x, y⟩
        | .right, .left => return some ⟨y, x⟩
        | _, _ => return none
    | _, _ => .ok none
  | _ => .ok none

/-- The conditions among some conjuncts, and the conjuncts that are not. -/
def splitConjuncts : List Expr → Result (List JoinCondition × List Expr)
  | [] => .ok ([], [])
  | e :: r => do
    let condition ← inputs.conditionOfConjunct e
    let (conditions, rest) ← splitConjuncts r
    match condition with
    | some c => return (c :: conditions, rest)
    | none => return (conditions, e :: rest)

/-! ### The residual -/

/-- The column with the table of its side. -/
def qualify (c : ColumnRef) : Result Expr := do
  match ← inputs.side c with
  | .left => return .column (some inputs.leftRef) c.name
  | .right => return .column (some inputs.rightRef) c.name

/-- The columns of both sides under names that say which side they are of. -/
def sidedSchema : Result Schema :=
  Schema.ofFields
    (inputs.left.fields.map (fun (n, t) => ("left." ++ n, t)) ++
      inputs.right.fields.map fun (n, t) => ("right." ++ n, t))

/-- A qualified column under such a name. -/
def sidedColumn (c : ColumnRef) : Result Expr :=
  .ok (.col ((if c.table = some inputs.leftRef then "left." else "right.") ++ c.name))

/-- A predicate whose columns carry the table of their side. It must be boolean and free of
aggregates and windows. -/
def qualifyResidual (e : Expr) : Result Expr := do
  let qualified ← e.mapColumnsM inputs.qualify
  let schema ← inputs.sidedSchema
  let t ← (← qualified.mapColumnsM inputs.sidedColumn).typeIn schema
  if !(t.isBoolean || t.isNull) then .error (.join (.notBoolean t))
  else if qualified.hasAggregate || qualified.hasWindow then .error (.join .aggregates)
  else return qualified

/-- The conditions and the residual of a predicate. -/
def splitPredicate : JoinPredicate → Result (List JoinCondition × Option Expr)
  | .columns pairs => do return (← pairs.mapM inputs.conditionOfPair, none)
  | .cross => .ok ([], none)
  | .expression e => do
    let (conditions, rest) ← inputs.splitConjuncts e.conjuncts
    return (conditions, ← (Expr.conjunction? rest).mapM inputs.qualifyResidual)

/-- The two columns of a condition must be comparable. -/
def checkKeyTypes (c : JoinCondition) : Result Unit := do
  let l ← inputs.left.typeOf c.left
  let r ← inputs.right.typeOf c.right
  if l.isComparable r then return () else .error (.join (.incomparableKeys c.left l c.right r))

/-! ### Output columns -/

/-- The source and type of a key with one name on both sides: the right value for a right join,
the first one that is not null for a full join, else the left value. -/
def collapsedKey (kind : JoinKind) (name : String) (l r : DataType) : JoinSource × DataType :=
  match kind with
  | .right => (.right name, r)
  | .full =>
    (.coalesce name name, ((l.supertype? r).getD l).withNullable (l.nullable || r.nullable))
  | _ => (.left name, l)

/-- An output column with its type. -/
abbrev TypedOutput := JoinOutput × DataType

/-- The output of a left column. -/
def leftOutput (kind : JoinKind) (collapsed : List String) (field : String × DataType) :
    Result TypedOutput := do
  let (name, t) := field
  if collapsed.contains name then
    let (source, t) := collapsedKey kind name t (← inputs.right.typeOf name)
    return (⟨name, source⟩, t)
  else
    let out := if inputs.right.contains name then name ++ inputs.suffixes.left else name
    return (⟨out, .left name⟩, if kind.nullsLeft then t.withNullable true else t)

/-- The output of a right column that is no collapsed key. -/
def rightOutput (kind : JoinKind) (field : String × DataType) : TypedOutput :=
  let (name, t) := field
  let out := if inputs.left.contains name then name ++ inputs.suffixes.right else name
  (⟨out, .right name⟩, if kind.nullsRight then t.withNullable true else t)

/-- The schema of some output columns, whose names must differ. -/
def outputSchema (outputs : List TypedOutput) : Result Schema :=
  match Schema.firstRepeated? (outputs.map (·.1.name)) with
  | some n => .error (.join (.duplicateOutput n inputs.suffixes.left inputs.suffixes.right))
  | none => Schema.ofFields (outputs.map fun (o, t) => (o.name, t))

/-- The output columns of a join with these conditions, and their schema. -/
def planOutputs (kind : JoinKind) (conditions : List JoinCondition) :
    Result (List JoinOutput × Schema) := do
  if kind.leftOnly then
    return (inputs.left.names.map fun n => ⟨n, .left n⟩, inputs.left)
  else
    let collapsed := (conditions.filter JoinCondition.isSameName).map JoinCondition.left
    let lefts ← inputs.left.fields.mapM (inputs.leftOutput kind collapsed)
    let rights := (inputs.right.fields.filter fun f => !collapsed.contains f.1).map
      (inputs.rightOutput kind)
    let outputs := lefts ++ rights
    return (outputs.map Prod.fst, ← inputs.outputSchema outputs)

/-- The join on a predicate and the schema of its rows. -/
def plan (predicate : JoinPredicate) (kind : JoinKind) : Result (Join × Schema) := do
  let (conditions, residual) ← inputs.splitPredicate predicate
  conditions.forM inputs.checkKeyTypes
  let (outputs, schema) ← inputs.planOutputs kind conditions
  return (⟨kind, conditions, residual, outputs⟩, schema)

end JoinInputs

end TableQuery
