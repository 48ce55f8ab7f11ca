import TableQuery.Expr.RowExpr
import TableQuery.Proofs.Result

/-! # Values of expressions and states of aggregates

Evaluation may fail. `RowExpr.valueOn` is the value of an expression on a row where it has one, and
`RowAggregate.stateOver` the state of an aggregate over rows where every update succeeds; what a
computation over many rows gives is said with them, and next to it that nothing fails. -/

namespace TableQuery

namespace RowExpr

/-- The value of the expression on a row, null where it has none. -/
def valueOn (row : Row) (e : RowExpr) : Scalar := (e.eval row).toOption.getD .null

theorem valueOn_of_eval {row : Row} {e : RowExpr} {v : Scalar} (h : e.eval row = .ok v) :
    e.valueOn row = v := by
  rw [valueOn, h]
  rfl

theorem mapM_eval_eq_ok_iff {row : Row} {es : List RowExpr} {vs : List Scalar} :
    es.mapM (·.eval row) = .ok vs ↔
      (∀ e ∈ es, ∃ v, e.eval row = .ok v) ∧ vs = es.map (valueOn row) :=
  Result.mapM_eq_ok_iff Scalar.null

end RowExpr

namespace RowAggregate

variable (a : RowAggregate)

/-- The state over some rows, that before any row where an update fails. -/
def stateOver (rows : List Row) : AggregateState := (a.fold a.initial rows).toOption.getD a.initial

@[simp] theorem fold_nil (s : AggregateState) : a.fold s [] = .ok s := rfl

theorem fold_append (s : AggregateState) (xs ys : List Row) :
    a.fold s (xs ++ ys) = a.fold s xs >>= fun t => a.fold t ys := List.foldlM_append

theorem fold_singleton (s : AggregateState) (row : Row) : a.fold s [row] = a.update s row := by
  rw [fold, List.foldlM_cons]
  exact bind_pure _

variable {a}

theorem stateOver_of_fold {rows : List Row} {s : AggregateState}
    (h : a.fold a.initial rows = .ok s) :
    a.stateOver rows = s := by
  rw [stateOver, h]
  rfl

/-- A row is seen by the value of the input. -/
theorem update_of_eval {e : RowExpr} (ha : a.input = some e) {row : Row} {v : Scalar}
    (hv : e.eval row = .ok v) (s : AggregateState) :
    a.update s row = s.update a.function v a.type := by
  rw [update, ha]
  dsimp only
  rw [hv]
  rfl

theorem update_countStar (ha : a.function = .countStar) {n : Nat} {row : Row} {s : AggregateState}
    (h : a.update (.count n) row = .ok s) : s = .count (n + 1) := by
  unfold update at h
  rw [ha] at h
  split at h
  · obtain ⟨v, -, h⟩ := Result.bind_eq_ok_iff.mp h
    cases h
    rfl
  · cases h
    rfl

/-- **Counting rows** adds one for every row. -/
theorem fold_countStar (ha : a.function = .countStar) : ∀ {rows : List Row} {n : Nat}
    {s : AggregateState}, a.fold (.count n) rows = .ok s → s = .count (n + rows.length)
  | [], _, _, h => by
    cases h
    rfl
  | row :: rows, n, s, h => by
    rw [← List.singleton_append, fold_append, fold_singleton] at h
    obtain ⟨t, ht, h⟩ := Result.bind_eq_ok_iff.mp h
    rw [update_countStar ha ht] at h
    rw [fold_countStar ha h, List.length_cons, Nat.add_assoc, Nat.add_comm 1]

/-- Counting without an input never fails. -/
theorem fold_count_rows (ha : a.function = .countStar) (hinput : a.input = none) (n : Nat)
    (rows : List Row) : a.fold (.count n) rows = .ok (.count (n + rows.length)) := by
  induction rows generalizing n with
  | nil => rfl
  | cons row rows ih =>
    have hupdate : a.update (.count n) row = .ok (.count (n + 1)) := by
      rw [update, hinput, ha]
      rfl
    rw [← List.singleton_append, fold_append, fold_singleton, hupdate, Result.ok_bind, ih,
      List.length_append, List.length_singleton, Nat.add_assoc]

end RowAggregate

end TableQuery
