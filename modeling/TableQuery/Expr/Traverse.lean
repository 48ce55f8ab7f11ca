import TableQuery.Expr.Basic

/-! # Traversing expressions

The columns an expression reads, in the order of its text; the expression with its columns or its
windows replaced; whether aggregates and windows occur; the parts of a conjunction. A window stops
the search for aggregates, since an aggregate inside it belongs to the window. -/

namespace TableQuery

/-- A reference to a column by name, and by the table it was taken from if that is known. -/
structure ColumnRef where
  table : Option TableRef
  name : String
  deriving DecidableEq

namespace Expr

/-- The expression that reads a column. -/
def ofColumn (c : ColumnRef) : Expr := column c.table c.name

mutual

/-- The columns that the expression reads, with repetitions. -/
def columns : Expr → List ColumnRef
  | .column table name => [⟨table, name⟩]
  | .literal _ => []
  | .arith _ a b => columns a ++ columns b
  | .compare _ a b => columns a ++ columns b
  | .conj _ es => columnsOfAll es
  | .unary _ e => columns e
  | .aggregate _ input => columnsOfInput input
  | .window _ input ps ks => columnsOfInput input ++ columnsOfAll ps ++ columnsOfKeys ks
  | .aliased _ e => columns e

def columnsOfInput : Option Expr → List ColumnRef
  | none => []
  | some e => columns e

def columnsOfAll : List Expr → List ColumnRef
  | [] => []
  | e :: r => columns e ++ columnsOfAll r

def columnsOfKeys : List (SortKey Expr) → List ColumnRef
  | [] => []
  | ⟨e, _, _⟩ :: r => columns e ++ columnsOfKeys r

end

mutual

/-- The number of nodes of the expression. -/
def nodeCount : Expr → Nat
  | .column _ _ => 1
  | .literal _ => 1
  | .arith _ a b => nodeCount a + nodeCount b + 1
  | .compare _ a b => nodeCount a + nodeCount b + 1
  | .conj _ es => nodeCountAll es + 1
  | .unary _ e => nodeCount e + 1
  | .aggregate _ input => nodeCountInput input + 1
  | .window _ input ps ks => nodeCountInput input + nodeCountAll ps + nodeCountKeys ks + 1
  | .aliased _ e => nodeCount e + 1

def nodeCountInput : Option Expr → Nat
  | none => 0
  | some e => nodeCount e

def nodeCountAll : List Expr → Nat
  | [] => 0
  | e :: r => nodeCount e + nodeCountAll r

def nodeCountKeys : List (SortKey Expr) → Nat
  | [] => 0
  | ⟨e, _, _⟩ :: r => nodeCount e + nodeCountKeys r

end

mutual

/-- Whether an aggregate occurs outside of windows. -/
def hasAggregate : Expr → Bool
  | .column _ _ => false
  | .literal _ => false
  | .arith _ a b => hasAggregate a || hasAggregate b
  | .compare _ a b => hasAggregate a || hasAggregate b
  | .conj _ es => hasAggregateAny es
  | .unary _ e => hasAggregate e
  | .aggregate _ _ => true
  | .window _ _ _ _ => false
  | .aliased _ e => hasAggregate e

def hasAggregateAny : List Expr → Bool
  | [] => false
  | e :: r => hasAggregate e || hasAggregateAny r

end

mutual

/-- Whether a window occurs anywhere. -/
def hasWindow : Expr → Bool
  | .column _ _ => false
  | .literal _ => false
  | .arith _ a b => hasWindow a || hasWindow b
  | .compare _ a b => hasWindow a || hasWindow b
  | .conj _ es => hasWindowAny es
  | .unary _ e => hasWindow e
  | .aggregate _ none => false
  | .aggregate _ (some e) => hasWindow e
  | .window _ _ _ _ => true
  | .aliased _ e => hasWindow e

def hasWindowAny : List Expr → Bool
  | [] => false
  | e :: r => hasWindow e || hasWindowAny r

end

mutual

/-- The expression with every column replaced by what `f` makes of it, in the order of the
columns. -/
def mapColumnsM {m : Type → Type} [Monad m] (f : ColumnRef → m Expr) : Expr → m Expr
  | .column table name => f ⟨table, name⟩
  | .literal v => pure (.literal v)
  | .arith op a b => do
    let a ← mapColumnsM f a
    let b ← mapColumnsM f b
    return .arith op a b
  | .compare op a b => do
    let a ← mapColumnsM f a
    let b ← mapColumnsM f b
    return .compare op a b
  | .conj op es => do return .conj op (← mapColumnsOfAllM f es)
  | .unary op e => do return .unary op (← mapColumnsM f e)
  | .aggregate g input => do return .aggregate g (← mapColumnsOfInputM f input)
  | .window g input ps ks => do
    let input ← mapColumnsOfInputM f input
    let ps ← mapColumnsOfAllM f ps
    let ks ← mapColumnsOfKeysM f ks
    return .window g input ps ks
  | .aliased name e => do return .aliased name (← mapColumnsM f e)

def mapColumnsOfInputM {m : Type → Type} [Monad m] (f : ColumnRef → m Expr) :
    Option Expr → m (Option Expr)
  | none => pure none
  | some e => do return some (← mapColumnsM f e)

def mapColumnsOfAllM {m : Type → Type} [Monad m] (f : ColumnRef → m Expr) :
    List Expr → m (List Expr)
  | [] => pure []
  | e :: r => do
    let e ← mapColumnsM f e
    let r ← mapColumnsOfAllM f r
    return e :: r

def mapColumnsOfKeysM {m : Type → Type} [Monad m] (f : ColumnRef → m Expr) :
    List (SortKey Expr) → m (List (SortKey Expr))
  | [] => pure []
  | ⟨e, descending, nullsFirst⟩ :: r => do
    let e ← mapColumnsM f e
    let r ← mapColumnsOfKeysM f r
    return ⟨e, descending, nullsFirst⟩ :: r

end

mutual

/-- The expression with every outermost window replaced by what `f` makes of it, in the order of
the text. -/
def mapWindowsM {m : Type → Type} [Monad m]
    (f : WindowFunction → Option Expr → List Expr → List (SortKey Expr) → m Expr) : Expr → m Expr
  | .column table name => pure (.column table name)
  | .literal v => pure (.literal v)
  | .arith op a b => do
    let a ← mapWindowsM f a
    let b ← mapWindowsM f b
    return .arith op a b
  | .compare op a b => do
    let a ← mapWindowsM f a
    let b ← mapWindowsM f b
    return .compare op a b
  | .conj op es => do return .conj op (← mapWindowsOfAllM f es)
  | .unary op e => do return .unary op (← mapWindowsM f e)
  | .aggregate g none => pure (.aggregate g none)
  | .aggregate g (some e) => do return .aggregate g (some (← mapWindowsM f e))
  | .window g input ps ks => f g input ps ks
  | .aliased name e => do return .aliased name (← mapWindowsM f e)

def mapWindowsOfAllM {m : Type → Type} [Monad m]
    (f : WindowFunction → Option Expr → List Expr → List (SortKey Expr) → m Expr) :
    List Expr → m (List Expr)
  | [] => pure []
  | e :: r => do
    let e ← mapWindowsM f e
    let r ← mapWindowsOfAllM f r
    return e :: r

end

mutual

/-- The parts of a conjunction, nested ones taken apart too. -/
def conjuncts : Expr → List Expr
  | .conj .and es => conjunctsOfAll es
  | .conj .or es => [.conj .or es]
  | .column table name => [.column table name]
  | .literal v => [.literal v]
  | .arith op a b => [.arith op a b]
  | .compare op a b => [.compare op a b]
  | .unary op e => [.unary op e]
  | .aggregate f input => [.aggregate f input]
  | .window f input ps ks => [.window f input ps ks]
  | .aliased name e => [.aliased name e]

def conjunctsOfAll : List Expr → List Expr
  | [] => []
  | e :: r => conjuncts e ++ conjunctsOfAll r

end

/-- The conjunction of a list of expressions, none for the empty list. -/
def conjunction? : List Expr → Option Expr
  | [] => none
  | e :: r => some (r.foldl Expr.and e)

/-- An aggregate, numbering of rows, or either under a name, over a window. -/
def overWindow? (partitionBy : List Expr) (orderBy : List (SortKey Expr)) : Expr → Option Expr
  | aggregate f input => some (window (.aggregate f) input partitionBy orderBy)
  | window f input _ _ => some (window f input partitionBy orderBy)
  | aliased name e => (overWindow? partitionBy orderBy e).map (named name)
  | _ => none

end Expr

end TableQuery
