import TableQuery.Operator.Run
import TableQuery.Proofs.Batch.Columnar

/-! # Operators on columns

Filters and sorts give rows of their input as they are, so what they make of a batch is told by
positions: those of the rows on which a predicate is true (`RowExpr.keptPositions`), and those of
all rows in the order of some keys (`Row.sortedPositions`). Selecting these positions is what the
operators do (`Operator.run_filter_eq_select`, `Operator.run_sort_eq_select`).

A batch that is held by columns need then not be read row by row to be filtered, sorted or cut: the
main statement, `ColumnBatch.Built.run_on_columns`, is that values taken from every column at the
positions give the batch of the operator, or its error. -/

namespace TableQuery

/-! ### Positions of rows -/

/-- The positions of the rows on which a predicate is true, the first row being at position `i`. -/
def RowExpr.keptPositions (predicate : RowExpr) : Nat → List Row → Result (List Nat)
  | _, [] => .ok []
  | i, r :: rows => do
    let keep ← predicate.holds r
    let rest ← keptPositions predicate (i + 1) rows
    return if keep then i :: rest else rest

/-- Positions with the values of sort keys on their rows, the first row being at position `i`. -/
def Keyed.positions (keys : List (SortKey RowExpr)) (i : Nat) (rows : List Row) :
    Result (List (Keyed Nat)) :=
  (rows.zipIdx i).mapM fun p => (SortKey.evalAll keys p.1).map fun ks => ⟨ks, p.2⟩

/-- The positions of the rows in the order of some keys. -/
def Row.sortedPositions (keys : List (SortKey RowExpr)) (rows : List Row) : Result (List Nat) := do
  return (Keyed.sort keys (← Keyed.positions keys 0 rows)).map Keyed.item

variable {all : List Row}

/-- What stands first behind some rows. -/
theorem getD_of_drop_eq_cons {r : Row} {rows : List Row} {i : Nat} (h : all.drop i = r :: rows) :
    all.getD i [] = r ∧ all.drop (i + 1) = rows := by
  constructor
  · have hrow : all[i]? = some r := by rw [← List.head?_drop, h, List.head?_cons]
    rw [List.getD_eq_getElem?_getD, hrow, Option.getD_some]
  · rw [← List.tail_drop, h, List.tail_cons]

namespace RowExpr

variable {e : RowExpr}

/-- **The rows that are kept** are those at the positions that are. -/
theorem keepRows_eq_map : ∀ {rows : List Row} {i : Nat}, all.drop i = rows →
    e.keepRows rows = (e.keptPositions i rows).map fun ps => ps.map (all.getD · [])
  | [], _, _ => rfl
  | r :: rows, i, h => by
    obtain ⟨hrow, hrest⟩ := getD_of_drop_eq_cons h
    rw [keepRows, keptPositions]
    cases e.holds r with
    | error err => rfl
    | ok keep =>
      rw [Result.ok_bind, Result.ok_bind, keepRows_eq_map hrest]
      cases e.keptPositions (i + 1) rows with
      | error err => rfl
      | ok ps =>
        cases keep with
        | false => rfl
        | true =>
          rw [← hrow]
          rfl

theorem lt_of_keptPositions : ∀ {rows : List Row} {i : Nat} {positions : List Nat},
    e.keptPositions i rows = .ok positions → ∀ j ∈ positions, j < i + rows.length
  | [], _, _, h, j, hj => by
    cases h
    cases hj
  | r :: rows, i, positions, h, j, hj => by
    obtain ⟨keep, -, h⟩ := Result.bind_eq_ok_iff.mp h
    obtain ⟨rest, hrest, h⟩ := Result.bind_eq_ok_iff.mp h
    have hlt : ∀ j ∈ rest, j < i + (r :: rows).length := fun j hj => by
      have := lt_of_keptPositions hrest j hj
      rw [List.length_cons]
      omega
    cases keep with
    | false =>
      cases h
      exact hlt j hj
    | true =>
      cases h
      rcases List.mem_cons.mp hj with rfl | hj
      · exact Nat.lt_add_of_pos_right (Nat.succ_pos _)
      · exact hlt j hj

end RowExpr

namespace Row

variable {keys : List (SortKey RowExpr)}

/-- The rows with the values of sort keys are those at the positions with these values. -/
theorem mapM_evalAll_eq_map : ∀ {rows : List Row} {i : Nat}, all.drop i = rows →
    (rows.mapM fun r => (SortKey.evalAll keys r).map fun ks => (⟨ks, r⟩ : Keyed Row)) =
      (Keyed.positions keys i rows).map fun ps =>
        ps.map fun p => (⟨p.keys, all.getD p.item []⟩ : Keyed Row)
  | [], _, _ => rfl
  | r :: rows, i, h => by
    obtain ⟨hrow, hrest⟩ := getD_of_drop_eq_cons h
    have hpositions : Keyed.positions keys i (r :: rows) = do
        let ks ← SortKey.evalAll keys r
        let ps ← Keyed.positions keys (i + 1) rows
        return ⟨ks, i⟩ :: ps := by
      rw [Keyed.positions, List.zipIdx_cons, List.mapM_cons]
      dsimp only
      cases SortKey.evalAll keys r <;> rfl
    rw [List.mapM_cons, mapM_evalAll_eq_map hrest, hpositions]
    cases SortKey.evalAll keys r with
    | error err => rfl
    | ok ks =>
      rw [Result.ok_bind]
      cases Keyed.positions keys (i + 1) rows with
      | error err => rfl
      | ok ps =>
        rw [← hrow]
        rfl

/-- **The rows in the order of the keys** are those at the sorted positions. -/
theorem sort_eq_map (keys : List (SortKey RowExpr)) (rows : List Row) :
    sort keys rows = (sortedPositions keys rows).map fun ps => ps.map (rows.getD · []) := by
  rw [sort, sortedPositions, mapM_evalAll_eq_map rows.drop_zero]
  cases Keyed.positions keys 0 rows with
  | error err => rfl
  | ok ps =>
    have hsort : Keyed.sort keys (ps.map fun p => (⟨p.keys, rows.getD p.item []⟩ : Keyed Row)) =
        (Keyed.sort keys ps).map fun p => ⟨p.keys, rows.getD p.item []⟩ := by
      refine (List.map_mergeSort fun _ _ _ _ => ?_).symm
      rfl
    refine congrArg Except.ok ?_
    dsimp only
    rw [hsort, List.map_map, List.map_map]
    rfl

theorem lt_of_sortedPositions {rows : List Row} {positions : List Nat}
    (h : sortedPositions keys rows = .ok positions) : ∀ j ∈ positions, j < rows.length := by
  obtain ⟨keyed, hkeyed, h⟩ := Result.bind_eq_ok_iff.mp h
  cases h
  intro j hj
  obtain ⟨k, hk, rfl⟩ := List.mem_map.mp hj
  obtain ⟨⟨r, i⟩, hi, hvalue⟩ := Result.exists_of_mem_mapM hkeyed k (List.mem_mergeSort.mp hk)
  obtain ⟨_, -, rfl⟩ := Result.map_eq_ok_iff.mp hvalue
  have hplace : rows[i]? = some r := List.mem_zipIdx_iff_getElem?.mp hi
  exact (List.getElem?_eq_some_iff.mp hplace).1

end Row

/-! ### Operators that select rows -/

/-- Rows of a batch are selected at their positions, also from a batch without columns. -/
theorem Batch.select_eq_ok {b : Batch} (hb : b.Rectangular) {positions : List Nat}
    (h : ∀ i ∈ positions, i < b.numRows) :
    b.select positions = .ok ⟨b.types, positions.map (b.rows.getD · [])⟩ := by
  have hrow : ∀ i ∈ positions, ∃ r, b.rows[i]? = some r ∧ b.rows.getD i [] = r := fun i hi =>
    ⟨_, List.getElem?_eq_getElem (h i hi), by simp [List.getElem?_eq_getElem (h i hi)]⟩
  rw [select]
  split
  · rename_i hempty
    rw [List.isEmpty_iff] at hempty
    have hnone : positions.map (b.rows.getD · []) = List.replicate positions.length [] := by
      rw [← List.map_const']
      refine List.map_congr_left fun i hi => ?_
      obtain ⟨r, hr, hget⟩ := hrow i hi
      have hlength : r.length = b.types.length := hb r (List.mem_of_getElem? hr)
      rw [hempty] at hlength
      exact hget.trans (List.eq_nil_of_length_eq_zero hlength)
    rw [hnone, hempty]
    rfl
  · rw [Result.mapM_eq_ok_map (g := (b.rows.getD · []))]
    · rfl
    · intro i hi
      obtain ⟨r, hr, hget⟩ := hrow i hi
      rw [hr, hget]

namespace Operator

variable {b : Batch} (provider : RowProvider) (types : List DataType)

/-- **A filter** selects the positions of the rows on which its predicate is true. -/
theorem run_filter_eq_select (hb : b.Rectangular) (e : RowExpr) :
    (filter e).run provider types [b] = e.keptPositions 0 b.rows >>= b.select := by
  change e.keepRows b.rows >>= _ = _
  rw [RowExpr.keepRows_eq_map b.rows.drop_zero]
  cases hpositions : e.keptPositions 0 b.rows with
  | error err => rfl
  | ok positions =>
    have hlt := RowExpr.lt_of_keptPositions hpositions
    rw [Nat.zero_add] at hlt
    exact (Batch.select_eq_ok hb hlt).symm

/-- **A sort** selects all positions in the order of its keys. -/
theorem run_sort_eq_select (hb : b.Rectangular) (keys : List (SortKey RowExpr)) :
    (sort keys).run provider types [b] = Row.sortedPositions keys b.rows >>= b.select := by
  change Row.sort keys b.rows >>= _ = _
  rw [Row.sort_eq_map]
  cases hpositions : Row.sortedPositions keys b.rows with
  | error err => rfl
  | ok positions => exact (Batch.select_eq_ok hb (Row.lt_of_sortedPositions hpositions)).symm

end Operator

/-- **Filters, sorts and limits run on columns**: for a batch that operations on columns have made,
each of them gives what is selected or sliced from the columns, row by row, or the same error. -/
theorem ColumnBatch.Built.run_on_columns {a : ColumnBatch} (h : a.Built) (provider : RowProvider)
    (types : List DataType) :
    (∀ e, (Operator.filter e).run provider types [a.toBatch] =
      e.keptPositions 0 a.rows >>= fun ps => (a.select ps).map toBatch) ∧
    (∀ keys, (Operator.sort keys).run provider types [a.toBatch] =
      Row.sortedPositions keys a.rows >>= fun ps => (a.select ps).map toBatch) ∧
    ∀ n offset, (Operator.limit n offset).run provider types [a.toBatch] =
      (a.slice offset n).map toBatch := by
  obtain ⟨hrectangular, -, hselect, hslice, -⟩ := h.toBatch_operations
  refine ⟨fun e => ?_, fun keys => ?_, fun n offset => (hslice offset n).symm⟩
  · rw [Operator.run_filter_eq_select provider types hrectangular]
    exact congrArg _ (funext fun ps => (hselect ps).symm)
  · rw [Operator.run_sort_eq_select provider types hrectangular]
    exact congrArg _ (funext fun ps => (hselect ps).symm)

end TableQuery
