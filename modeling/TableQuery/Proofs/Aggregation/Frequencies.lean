import Mathlib.Algebra.BigOperators.Group.List.Lemmas
import TableQuery.Proofs.Aggregation.Results
import TableQuery.Proofs.Join.Equality
import TableQuery.Proofs.Operator.ExactKeys

/-! # Frequencies

A column that is grouped by, with the number of rows of each group, gives the different keys of its
values in the order of their first occurrences, each with the first value that has it and with the
number of its occurrences (`frequencyRows`, `RowAggregation.rows_frequencies`). Null is a key like
any other here. Counting the values of the column, or the different ones among them, skips nulls:
the different values are the other groups (`length_keyed_frequencyRows`), and the values are their
rows (`exists_sum_keyed_frequencyRows`). -/

namespace TableQuery

/-! ### Keys without repetitions -/

section EraseDups

variable {κ : Type} [DecidableEq κ]

/-- Keys may be left out before or after repetitions are. -/
theorem eraseDups_filter (p : κ → Bool) (ks : List κ) :
    (ks.filter p).eraseDups = ks.eraseDups.filter p := by
  induction ks using List.reverseRecOn with
  | nil => rfl
  | append_singleton ks k ih =>
    have hfilter : (ks ++ [k]).filter p = ks.filter p ++ if p k then [k] else [] := by
      cases hk : p k <;> simp [hk]
    rw [hfilter]
    by_cases hmem : k ∈ ks
    · rw [eraseDups_concat_of_mem hmem]
      split
      · rename_i hk
        rw [eraseDups_concat_of_mem (List.mem_filter.mpr ⟨hmem, hk⟩), ih]
      · rw [List.append_nil, ih]
    · rw [eraseDups_concat_of_not_mem hmem, List.filter_append]
      split
      · rename_i hk
        rw [eraseDups_concat_of_not_mem fun h => hmem (List.mem_filter.mp h).1, ih]
        simp [hk]
      · rename_i hk
        rw [List.append_nil, ih]
        simp [hk]

/-- The occurrences of some of the keys, put together. -/
theorem sum_count_eraseDups (p : κ → Bool) (ks : List κ) :
    ((ks.eraseDups.filter p).map ks.count).sum = (ks.filter p).length := by
  have hperm : ks.eraseDups.Perm ks.dedup :=
    (List.perm_ext_iff_of_nodup (nodup_eraseDups ks) ks.nodup_dedup).mpr fun k => by simp
  rw [((hperm.filter p).map ks.count).sum_eq, ← List.countP_eq_length_filter]
  exact List.sum_map_count_dedup_filter_eq_countP p ks

end EraseDups

/-! ### Values and their keys -/

/-- The rows of groups with a key: their first value is not null. -/
def Row.keyed (rows : List Row) : List Row := rows.filter fun row => !(row.getD 0 .null).isNull

namespace Scalar

variable {vs : List Scalar} {k : Key}

/-- The first of some values that has a key. -/
def firstOf (vs : List Scalar) (k : Key) : Scalar := (vs.find? fun v => v.key = k).getD .null

/-- The row of a key: the first value that has it, and how many values do. -/
def frequencyRow (vs : List Scalar) (k : Key) : Row :=
  [firstOf vs k, ofCount ((vs.map key).count k)]

/-- **The frequencies of some values**: a row for every key, in the order of first occurrences. -/
def frequencyRows (vs : List Scalar) : List Row := (vs.map key).eraseDups.map (frequencyRow vs)

theorem key_firstOf (h : k ∈ vs.map key) : (firstOf vs k).key = k := by
  obtain ⟨v, hv, rfl⟩ := List.mem_map.mp h
  cases hfind : vs.find? fun w => w.key = v.key with
  | none => exact absurd (decide_eq_true rfl) (List.find?_eq_none.mp hfind v hv)
  | some w =>
    rw [firstOf, hfind]
    simpa using List.find?_some hfind

theorem isNull_firstOf (h : k ∈ vs.map key) : (firstOf vs k).isNull = decide (k = .null) := by
  rw [Bool.eq_iff_iff, isNull_iff, ← key_eq_null_iff, key_firstOf h, decide_eq_true_iff]

/-- The keys of the values that are not null. -/
theorem map_key_filter_isNull (vs : List Scalar) :
    (vs.filter fun v => !v.isNull).map key = (vs.map key).filter fun k => !decide (k = .null) := by
  rw [List.filter_map]
  refine congrArg (List.map key) (List.filter_congr fun v _ => ?_)
  rw [Function.comp_apply, Bool.not_inj_iff, Bool.eq_iff_iff, isNull_iff, decide_eq_true_iff,
    key_eq_null_iff]

/-- The rows of the keys that are not null. -/
theorem keyed_frequencyRows (vs : List Scalar) : Row.keyed (frequencyRows vs) =
    ((vs.map key).eraseDups.filter fun k => !decide (k = .null)).map (frequencyRow vs) := by
  rw [frequencyRows, Row.keyed, List.filter_map]
  refine congrArg (List.map _) (List.filter_congr fun k hk => ?_)
  exact congrArg (! ·) (isNull_firstOf (List.mem_eraseDups.mp hk))

/-- **The different values** that are not null are the groups with a key that is not null. -/
theorem length_keyed_frequencyRows (vs : List Scalar) : (Row.keyed (frequencyRows vs)).length =
    ((vs.filter fun v => !v.isNull).map key).eraseDups.length := by
  rw [keyed_frequencyRows, List.length_map, map_key_filter_isNull, eraseDups_filter]

/-- **The values** that are not null are the rows of these groups. -/
theorem exists_sum_keyed_frequencyRows (vs : List Scalar) : ∃ ns : List Nat,
    (Row.keyed (frequencyRows vs)).map (·.getD 1 .null) = ns.map ofCount ∧
      ns.sum = (vs.filter fun v => !v.isNull).length := by
  refine ⟨((vs.map key).eraseDups.filter fun k => !decide (k = .null)).map (vs.map key).count,
    ?_, ?_⟩
  · rw [keyed_frequencyRows, List.map_map, List.map_map]
    rfl
  · rw [sum_count_eraseDups, ← map_key_filter_isNull, List.length_map]

end Scalar

/-! ### Groups of a column -/

/-- The values at a position of some rows. -/
def Row.valuesAt (i : Nat) (rows : List Row) : List Scalar := rows.map (·.getD i .null)

namespace RowAggregate

variable {f : RowAggregate} {e : RowExpr}

/-- Counting values counts those that are not null. -/
theorem fold_count (hf : f.function = .count) (he : f.input = some e) {rows : List Row}
    (h : ∀ r ∈ rows, ∃ v, e.eval r = .ok v) :
    f.fold f.initial rows = .ok (.count (inputsOf e rows).length) := by
  induction rows using List.reverseRecOn with
  | nil =>
    rw [fold_nil, initial, hf]
    rfl
  | append_singleton rows r ih =>
    obtain ⟨v, hv⟩ := h r (by simp)
    rw [fold_append, ih fun s hs => h s (List.mem_append_left _ hs), Result.ok_bind, fold_singleton,
      update_of_eval he hv, hf, inputsOf_concat, RowExpr.valueOn_of_eval hv]
    change (if v.isNull then _ else _) = _
    split
    · rw [List.append_nil]
    · rw [List.length_append]
      rfl

theorem inputsOf_column (i : Nat) (t : DataType) (rows : List Row) :
    inputsOf (.column i t) rows = (Row.valuesAt i rows).filter fun v => !v.isNull := rfl

end RowAggregate

namespace RowAggregation

variable {f : RowAggregate} {i : Nat} {t : DataType} {input : List Row}

theorem members_column (f : RowAggregate) (i : Nat) (t : DataType) (input : List Row) (k : Key) :
    members ⟨[.column i t], [f]⟩ input [k] = input.filter fun r => (r.getD i .null).key = k :=
  List.filter_congr fun _ _ => decide_eq_decide.mpr List.singleton_inj

/-- A group of a column has the first value of its key. -/
theorem valuesOf_column {r : Row} (hr : r ∈ input) :
    valuesOf ⟨[.column i t], [f]⟩ input [(r.getD i .null).key] =
      [Scalar.firstOf (Row.valuesAt i input) (r.getD i .null).key] := by
  rw [valuesOf, members_column, List.head?_filter, Scalar.firstOf, Row.valuesAt, List.find?_map]
  cases hfind : input.find? fun s => (s.getD i .null).key = (r.getD i .null).key with
  | none => exact absurd (decide_eq_true rfl) (List.find?_eq_none.mp hfind r hr)
  | some s =>
    rw [Function.comp_def, hfind]
    rfl

theorem length_members_column (f : RowAggregate) (i : Nat) (t : DataType) (input : List Row)
    (k : Key) : (members ⟨[.column i t], [f]⟩ input [k]).length =
      ((Row.valuesAt i input).map Scalar.key).count k := by
  rw [members_column, Row.valuesAt, List.map_map, List.count_eq_countP, List.countP_map,
    List.countP_eq_length_filter]
  exact congrArg List.length (List.filter_congr fun _ _ => rfl)

/-- **Grouping by a column** and counting the rows of each group gives the frequencies of its
values. -/
theorem rows_frequencies (hf : f.function = .countStar) (hinput : f.input = none)
    (i : Nat) (t : DataType) (input : List Row) :
    rows ⟨[.column i t], [f]⟩ input = .ok (Scalar.frequencyRows (Row.valuesAt i input)) := by
  have hinitial : f.initial = .count 0 := by rw [RowAggregate.initial, hf]; rfl
  have hfold : ∀ rs, f.fold f.initial rs = .ok (.count rs.length) := by
    intro rs
    rw [hinitial, RowAggregate.fold_count_rows hf hinput, Nat.zero_add]
  have hdefined : Defined ⟨[.column i t], [f]⟩ input := by
    refine ⟨fun r _ e he => ?_, fun k g hg => ?_⟩
    · rw [List.mem_singleton.mp he]
      exact ⟨_, rfl⟩
    · rw [List.mem_singleton.mp hg]
      exact ⟨_, hfold _⟩
  have hrow : ∀ r ∈ input, outputRow ⟨[.column i t], [f]⟩ input [(r.getD i .null).key] =
      Scalar.frequencyRow (Row.valuesAt i input) (r.getD i .null).key := by
    intro r hr
    rw [outputRow, valuesOf_column hr, List.map_singleton, RowAggregate.stateOver_of_fold (hfold _),
      length_members_column]
    rfl
  have hkeys : groupKeys ⟨[.column i t], [f]⟩ input =
      (input.map fun r => [(r.getD i .null).key]).eraseDups := rfl
  refine rows_eq_ok_iff.mpr ⟨hdefined, ?_⟩
  rw [hkeys, Scalar.frequencyRows, Row.valuesAt, List.map_map]
  exact (map_eraseDups_map_congr (fun _ _ _ _ => List.singleton_inj) hrow).symm

end RowAggregation

end TableQuery
