import Mathlib
import TableQuery.Proofs.Operator.Ordering

/-! # Sorts

A sort puts the rows of a batch in another order and changes nothing else. Together with its place
in the batch every row is a different element, so what the sort does is told by the places of the
rows that come out: each place occurs once, and rows on which the keys tie keep the order of their
places. In every column the values stand where the rows do (`Batch.select_columns`).

Which rows come first is up to the first key on which they differ; nulls are put by the key alone,
whatever its direction (`SortKey.null_of_isLE`). The main statement, `Operator.exists_run_sort`, is
about keys that have values on all rows, where these are nulls and values of one family under each
key. -/

namespace TableQuery

/-! ### Nulls -/

namespace SortKey

/-- **Nulls under a key** stand in front of all values, or behind them. -/
theorem null_of_isLE {α : Type} {k : SortKey α} {a b : Scalar} (h : (k.order a b).isLE) :
    (k.nullsFirst = true → b = .null → a = .null) ∧
      (k.nullsFirst = false → a = .null → b = .null) := by
  constructor
  · rintro hfirst rfl
    by_contra ha
    have ha : a.isNull = false := Bool.eq_false_iff.mpr (ha ∘ Scalar.isNull_iff.mp)
    rw [order, ha, hfirst] at h
    cases h
  · rintro hlast rfl
    by_contra hb
    have hb : b.isNull = false := Bool.eq_false_iff.mpr (hb ∘ Scalar.isNull_iff.mp)
    rw [order, hb, hlast] at h
    cases h

theorem order_isLE_of_orderRows {k : SortKey RowExpr} {keys : List (SortKey RowExpr)} {r s : Row}
    (h : (orderRows (k :: keys) r s).isLE) :
    (k.order (k.expr.valueOn r) (k.expr.valueOn s)).isLE := by
  change ((k.order (k.expr.valueOn r) (k.expr.valueOn s)).then _).isLE at h
  revert h
  cases k.order (k.expr.valueOn r) (k.expr.valueOn s) <;> intro h <;> first | rfl | cases h

end SortKey

namespace Batch

variable {b : Batch} {placed : List (Row × Nat)}

/-- **Rows that are picked by their places** are picked as a whole: selecting the places in every
column gives the columns of these rows. -/
theorem select_columns (h : ∀ p ∈ placed, b.row? p.2 = some p.1) :
    b.columns.mapM (·.select (placed.map fun p => some p.2)) =
      .ok (⟨b.types, placed.map Prod.fst⟩ : Batch).columns := by
  have hvalues : ∀ (t : DataType) (j : Nat),
      (⟨t, b.rows.map (·.getD j .null)⟩ : Column).select (placed.map fun p => some p.2) =
        .ok ⟨t, (placed.map Prod.fst).map (·.getD j .null)⟩ := by
    intro t j
    have hrow : ∀ p ∈ placed, (b.rows.map (·.getD j .null))[p.2]? = some (p.1.getD j .null) := by
      intro p hp
      have hplace : b.rows[p.2]? = some p.1 := h p hp
      rw [List.getElem?_map, hplace]
      rfl
    rw [Column.select, List.mapM_map, Result.mapM_eq_ok_map (g := fun p => p.1.getD j .null),
      List.map_map]
    · rfl
    · intro p hp
      simp only [Function.comp_apply, hrow p hp]
  rw [columns, List.mapM_map, columns]
  exact Result.mapM_eq_ok_map fun p _ => hvalues p.1 p.2

end Batch

/-! ### Stable sorts -/

/-- **The rows of a batch in the stable order of sort keys**, with the places of the batch at which
they stand. -/
structure Batch.SortedStably (keys : List (SortKey RowExpr)) (b out : Batch) (places : List Nat) :
    Prop where
  types_eq : out.types = b.types
  rows_perm : out.rows.Perm b.rows
  /-- Every place occurs once. -/
  places_perm : places.Perm (List.range b.numRows)
  rows_eq : out.rows.map some = places.map b.row?
  columns_eq : b.columns.mapM (·.select (places.map some)) = .ok out.columns
  /-- No row compares less than one in front of it. -/
  ordered : out.rows.Pairwise fun r s => SortKey.orderRows keys s r ≠ .lt
  /-- Rows that tie keep their order. -/
  ties : places.Pairwise fun i j => ∀ r s, b.row? i = some r → b.row? j = some s →
    SortKey.orderRows keys r s = .eq → i < j
  nulls_first : ∀ k ∈ keys.head?, k.nullsFirst = true →
    out.rows.Pairwise fun r s => k.expr.valueOn s = .null → k.expr.valueOn r = .null
  nulls_last : ∀ k ∈ keys.head?, k.nullsFirst = false →
    out.rows.Pairwise fun r s => k.expr.valueOn r = .null → k.expr.valueOn s = .null

/-- **Rows with their places** of which each is before those that follow are the rows in their
stable order. -/
theorem Batch.SortedStably.of_before {keys : List (SortKey RowExpr)} {b : Batch}
    {sorted : List (Row × Nat)} (hordered : OrderedOn (· ∈ b.rows) (SortKey.orderRows keys))
    (hperm : sorted.Perm b.rows.zipIdx)
    (hbefore : sorted.Pairwise
      (OrderedOn.Before (fun p q => SortKey.orderRows keys p.1 q.1) Prod.snd)) :
    b.SortedStably keys ⟨b.types, sorted.map Prod.fst⟩ (sorted.map Prod.snd) := by
  have hplace : ∀ p ∈ sorted, b.row? p.2 = some p.1 := fun p hp =>
    List.mem_zipIdx_iff_getElem?.mp (hperm.subset hp)
  have hmem : ∀ p ∈ sorted, p.1 ∈ b.rows := fun p hp => List.mem_of_getElem? (hplace p hp)
  have hfirst : ∀ k ∈ keys.head?, ∀ p q : Row × Nat,
      (SortKey.orderRows keys p.1 q.1).isLE →
        (k.order (k.expr.valueOn p.1) (k.expr.valueOn q.1)).isLE := by
    intro k hk p q hle
    obtain ⟨rest, rfl⟩ := List.head?_eq_some_iff.mp hk
    exact SortKey.order_isLE_of_orderRows hle
  constructor
  case types_eq => rfl
  case rows_perm =>
    have h := hperm.map Prod.fst
    rwa [List.zipIdx_map_fst] at h
  case places_perm =>
    have h := hperm.map Prod.snd
    rwa [List.zipIdx_map_snd, ← List.range_eq_range'] at h
  case rows_eq =>
    rw [List.map_map, List.map_map]
    exact List.map_congr_left fun p hp => (hplace p hp).symm
  case columns_eq =>
    rw [List.map_map]
    exact select_columns hplace
  case ordered =>
    refine List.pairwise_map.mpr (hbefore.imp_of_mem fun {p q} hp hq hpq hlt => ?_)
    have hswap := hordered.eq_swap (hmem p hp) (hmem q hq)
    rw [hlt] at hswap
    have hle := hpq.isLE
    rw [hswap] at hle
    cases hle
  case ties =>
    refine List.pairwise_map.mpr (hbefore.imp_of_mem fun {p q} hp hq hpq r s hr hs heq => ?_)
    obtain rfl : p.1 = r := Option.some.inj ((hplace p hp).symm.trans hr)
    obtain rfl : q.1 = s := Option.some.inj ((hplace q hq).symm.trans hs)
    rcases hpq with hlt | ⟨-, hlt⟩
    · exact absurd (heq.symm.trans hlt) (by decide)
    · exact hlt
  case nulls_first =>
    intro k hk hnulls
    exact List.pairwise_map.mpr (hbefore.imp fun {p q} hpq =>
      (SortKey.null_of_isLE (hfirst k hk p q hpq.isLE)).1 hnulls)
  case nulls_last =>
    intro k hk hnulls
    exact List.pairwise_map.mpr (hbefore.imp fun {p q} hpq =>
      (SortKey.null_of_isLE (hfirst k hk p q hpq.isLE)).2 hnulls)

namespace Operator

variable {keys : List (SortKey RowExpr)} {b : Batch}

/-- **A sort is stable.** Keys that have values on all rows, which are nulls and values of one
family under each key, put the rows in their stable order. -/
theorem exists_run_sort (provider : RowProvider) (types : List DataType)
    (hvalues : ∀ r ∈ b.rows, ∀ k ∈ keys, ∃ v, k.expr.eval r = .ok v)
    (hfamilies : ∀ k ∈ keys, k.InFamily b.rows) :
    ∃ out places, (sort keys).run provider types [b] = .ok out ∧
      b.SortedStably keys out places := by
  have hordered : OrderedOn (· ∈ b.rows) (SortKey.orderRows keys) :=
    SortKey.orderedOn_orderAll hfamilies
  have hplaced : OrderedOn (fun p : Row × Nat => p.1 ∈ b.rows) fun p q =>
      SortKey.orderRows keys p.1 q.1 := hordered.comap Prod.fst fun _ hp => hp
  have hrows : (b.rows.zipIdx.mergeSort fun p q =>
      (SortKey.orderRows keys p.1 q.1).isLE).map Prod.fst =
        (b.rows.zipIdx.map Prod.fst).mergeSort fun r s => (SortKey.orderRows keys r s).isLE :=
    List.map_mergeSort fun _ _ _ _ => rfl
  rw [List.zipIdx_map_fst] at hrows
  have hsort := Row.sort_eq_ok_iff.mpr ⟨hvalues, hrows⟩
  refine ⟨_, _, ?_, .of_before hordered (List.mergeSort_perm _ _)
    (hplaced.pairwise_mergeSort (fun p hp => List.fst_mem_of_mem_zipIdx hp)
      (OrderedOn.pairwise_place_zipIdx b.rows))⟩
  rw [run, singleInput, Result.ok_bind, hsort]
  rfl

/-- Integers of three widths and nulls in descending order, nulls first: equal numbers of different
widths keep their order, and so do the nulls. -/
theorem run_sort_widths :
    let small (v : Int) : Scalar := .int .int8 (Bounded.clamp _ _ (by decide) v)
    let medium (v : Int) : Scalar := .int .uint32 (Bounded.clamp _ _ (by decide) v)
    let large (v : Int) : Scalar := .int .int64 (Bounded.clamp _ _ (by decide) v)
    let rows : List Row := [[small 3, .utf8 "a"], [.null, .utf8 "b"], [large 3, .utf8 "c"],
      [medium 5, .utf8 "d"], [.null, .utf8 "e"]]
    let b : Batch := ⟨[.int64, .utf8], rows⟩
    let keys : List (SortKey RowExpr) := [⟨.column 0 .int64, true, true⟩]
    let out : Batch := ⟨[.int64, .utf8], [[.null, .utf8 "b"], [.null, .utf8 "e"],
      [medium 5, .utf8 "d"], [small 3, .utf8 "a"], [large 3, .utf8 "c"]]⟩
    ∀ provider : RowProvider, (sort keys).run provider b.types [b] = .ok out ∧
      ∃ places, b.SortedStably keys out places := by
  intro small medium large rows b keys out provider
  have hrun : (sort keys).run provider b.types [b] = .ok out := by cbv
  have hvalues : ∀ r ∈ b.rows, ∀ k ∈ keys, ∃ v, k.expr.eval r = .ok v := by
    intro r _ k hk
    cases List.mem_singleton.mp hk
    exact ⟨_, rfl⟩
  have hfamilies : ∀ k ∈ keys, k.InFamily b.rows := by
    intro k hk
    cases List.mem_singleton.mp hk
    refine ⟨.integer, ?_⟩
    have hall : ∀ r ∈ rows, r.getD 0 .null = .null ∨ (r.getD 0 .null).family? = some .integer := by
      simp [rows, small, medium, large, Scalar.family?]
    exact hall
  obtain ⟨out', places, hout, hstable⟩ := exists_run_sort provider b.types hvalues hfamilies
  cases Except.ok.inj (hrun.symm.trans hout)
  exact ⟨hrun, places, hstable⟩

end Operator

end TableQuery
