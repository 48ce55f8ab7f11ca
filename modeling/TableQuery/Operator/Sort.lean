import TableQuery.Expr.RowExpr

/-! # Sorting rows

A stable sort of items by the values of sort keys. The keys of every row are evaluated before any
two rows are compared. -/

namespace TableQuery

/-- An item with the values of the sort keys on its row. -/
structure Keyed (α : Type) where
  keys : List Scalar
  item : α

namespace Keyed

/-- The stable order of some items under sort keys. -/
def sort {α β : Type} (keys : List (SortKey β)) (items : List (Keyed α)) : List (Keyed α) :=
  items.mergeSort fun a b => (SortKey.orderAll keys a.keys b.keys).isLE

/-- Whether an item ties with another one. -/
def isPeer {α β : Type} (keys : List (SortKey β)) (a b : Keyed α) : Bool :=
  SortKey.orderAll keys a.keys b.keys == .eq

end Keyed

/-- The rows in the order of some keys. -/
def Row.sort (keys : List (SortKey RowExpr)) (rows : List Row) : Result (List Row) := do
  let keyed ← rows.mapM fun r => (SortKey.evalAll keys r).map fun ks => (⟨ks, r⟩ : Keyed Row)
  return (Keyed.sort keys keyed).map Keyed.item

end TableQuery
