import Mathlib.Data.List.Pairwise
import TableQuery.Operator.Run
import TableQuery.Proofs.Expr.Value

/-! # Rows of single operators

What filters, sorts and limits do to a list of rows, and when rows make a batch: a filter keeps the
rows on which its predicate is true (`keepRows_eq_ok_iff`), a sort puts them in the stable order of
its keys (`Row.sort_eq_ok_iff`), a limit takes a part of them. Each is an equation for the rows that
come out, beside the condition under which nothing that is evaluated fails. -/

namespace TableQuery

namespace RowExpr

/-- **A filter** keeps the rows on which its predicate is true, if it has a value on all of them. -/
theorem keepRows_eq_ok_iff {x : RowExpr} : ∀ {rows out : List Row}, x.keepRows rows = .ok out ↔
    (∀ r ∈ rows, ∃ v, x.eval r = .ok v) ∧ out = rows.filter fun r => isTrue (x.valueOn r)
  | [], out => by simp [keepRows, eq_comm]
  | r :: rows, out => by
    have ih := @keepRows_eq_ok_iff x rows
    simp only [keepRows, Result.bind_eq_ok_iff, holds, Result.map_eq_ok_iff, ih,
      List.forall_mem_cons, Result.pure_eq_ok, Except.ok.injEq]
    constructor
    · rintro ⟨_, ⟨v, hv, rfl⟩, _, ⟨hall, rfl⟩, rfl⟩
      refine ⟨⟨⟨v, hv⟩, hall⟩, ?_⟩
      rw [List.filter_cons, valueOn, hv]
      rfl
    · rintro ⟨⟨⟨v, hv⟩, hall⟩, rfl⟩
      refine ⟨_, ⟨v, hv, rfl⟩, _, ⟨hall, rfl⟩, ?_⟩
      rw [List.filter_cons, valueOn, hv]
      rfl

theorem keepRows_sublist {x : RowExpr} {rows out : List Row} (h : x.keepRows rows = .ok out) :
    out.Sublist rows := by
  obtain ⟨-, rfl⟩ := keepRows_eq_ok_iff.mp h
  exact List.filter_sublist

end RowExpr

namespace SortKey

/-- The values of sort keys on a row. -/
def valuesOn (keys : List (SortKey RowExpr)) (row : Row) : List Scalar :=
  keys.map fun k => k.expr.valueOn row

/-- The order of rows under sort keys. -/
def orderRows (keys : List (SortKey RowExpr)) (r s : Row) : Ordering :=
  orderAll keys (valuesOn keys r) (valuesOn keys s)

theorem evalAll_eq_ok_iff {keys : List (SortKey RowExpr)} {row : Row} {vs : List Scalar} :
    evalAll keys row = .ok vs ↔
      (∀ k ∈ keys, ∃ v, k.expr.eval row = .ok v) ∧ vs = valuesOn keys row :=
  Result.mapM_eq_ok_iff Scalar.null

end SortKey

/-- **A sort** puts the rows in the stable order of the keys, if these have values on all of them.
-/
theorem Row.sort_eq_ok_iff {keys : List (SortKey RowExpr)} {rows out : List Row} :
    Row.sort keys rows = .ok out ↔ (∀ r ∈ rows, ∀ k ∈ keys, ∃ v, k.expr.eval r = .ok v) ∧
      out = rows.mergeSort fun r s => (SortKey.orderRows keys r s).isLE := by
  have hkeyed : ∀ {keyed : List (Keyed Row)},
      (rows.mapM fun r => (SortKey.evalAll keys r).map fun ks => (⟨ks, r⟩ : Keyed Row)) =
        .ok keyed ↔ (∀ r ∈ rows, ∀ k ∈ keys, ∃ v, k.expr.eval r = .ok v) ∧
          keyed = rows.map fun r => ⟨SortKey.valuesOn keys r, r⟩ := by
    refine Result.mapM_eq_ok_map_iff fun r _ keyed => ?_
    simp only [Result.map_eq_ok_iff, SortKey.evalAll_eq_ok_iff]
    constructor
    · rintro ⟨_, ⟨h, rfl⟩, rfl⟩
      exact ⟨h, rfl⟩
    · rintro ⟨h, rfl⟩
      exact ⟨_, ⟨h, rfl⟩, rfl⟩
  have hsort : Keyed.sort keys (rows.map fun r => ⟨SortKey.valuesOn keys r, r⟩) =
      (rows.mergeSort fun r s => (SortKey.orderRows keys r s).isLE).map fun r =>
        ⟨SortKey.valuesOn keys r, r⟩ := by
    refine (List.map_mergeSort fun _ _ _ _ => ?_).symm
    rfl
  have hsorted : (Keyed.sort keys (rows.map fun r => ⟨SortKey.valuesOn keys r, r⟩)).map Keyed.item =
      rows.mergeSort fun r s => (SortKey.orderRows keys r s).isLE := by
    rw [hsort, List.map_map]
    exact List.map_id _
  simp only [Row.sort, Result.bind_eq_ok_iff, hkeyed, Result.pure_eq_ok, Except.ok.injEq]
  constructor
  · rintro ⟨_, ⟨h, rfl⟩, rfl⟩
    exact ⟨h, hsorted⟩
  · rintro ⟨h, rfl⟩
    exact ⟨_, ⟨h, rfl⟩, hsorted⟩

theorem Row.sort_perm {keys : List (SortKey RowExpr)} {rows out : List Row}
    (h : Row.sort keys rows = .ok out) : out.Perm rows := by
  obtain ⟨-, rfl⟩ := Row.sort_eq_ok_iff.mp h
  exact List.mergeSort_perm _ _

namespace Batch

theorem slice_rows_sublist (b : Batch) (offset : Nat) (n : Option Nat) :
    (b.slice offset n).rows.Sublist b.rows := by
  cases n with
  | none => exact List.drop_sublist _ _
  | some n => exact (List.take_sublist _ _).trans (List.drop_sublist _ _)

/-- Rows make a batch if each has a value for every type. -/
theorem ofRows_eq_ok_iff {types : List DataType} {rows : List Row} {b : Batch} :
    ofRows types rows = .ok b ↔ (∀ r ∈ rows, r.length = types.length) ∧ b = ⟨types, rows⟩ := by
  unfold ofRows
  split
  · rename_i r hr
    have hmem := List.mem_of_find?_eq_some hr
    have hlength := List.find?_some hr
    simp only [ne_eq, decide_not, Bool.not_eq_true', decide_eq_false_iff_not] at hlength
    exact ⟨fun h => (nomatch h), fun ⟨h, _⟩ => absurd (h r hmem) hlength⟩
  · rename_i hnone
    rw [List.find?_eq_none] at hnone
    have hall : ∀ r ∈ rows, r.length = types.length := by simpa using hnone
    rw [Except.ok.injEq, eq_comm]
    exact ⟨fun h => ⟨hall, h⟩, fun h => h.2⟩

end Batch

end TableQuery
