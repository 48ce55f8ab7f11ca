import TableQuery.Proofs.Grouping
import TableQuery.Proofs.Operator.Rows

/-! # Aggregation by groups

What an aggregation means, without a loop over groups that change: the rows of a group are those of
one key (`members`), the keys come in the order of their first rows (`groupKeys`), and the output
row of a key has the values that its first row is grouped by and every aggregate over its rows
(`outputRow`). The main statement, `run_aggregate_eq_groups`, is that running the aggregation gives
these rows exactly when nothing that it evaluates fails, and that counts of rows add up to the
number of rows.

The invariant of the loop is `foldlM_step_eq_ok_iff`: after some of the rows, the groups are those
of these rows. One more row changes one group or opens one (`step_groupsOf_eq_ok_iff`). -/

namespace TableQuery

namespace RowAggregation

variable (a : RowAggregation)

/-! ### Groups -/

/-- The values that a row is grouped by. -/
def groupValues (row : Row) : List Scalar := a.groupBy.map (RowExpr.valueOn row)

/-- The key of a row's group. -/
def groupKey (row : Row) : List Key := (a.groupValues row).map Scalar.key

/-- **The keys of the groups**, in the order of their first rows; a single one if there is nothing
to group by. -/
def groupKeys (input : List Row) : List (List Key) :=
  if a.groupBy.isEmpty then [[]] else (input.map a.groupKey).eraseDups

/-- The rows of a group. -/
def members (input : List Row) (k : List Key) : List Row := input.filter fun r => a.groupKey r = k

/-- The values of a group, as its first row has them. -/
def valuesOf (input : List Row) (k : List Key) : List Scalar :=
  (a.members input k).head?.elim [] a.groupValues

/-- **The output row of a group**: its values, and the aggregates over its rows. -/
def outputRow (input : List Row) (k : List Key) : Row :=
  a.valuesOf input k ++ a.aggregates.map fun f => (f.stateOver (a.members input k)).result

/-- **Nothing fails**: the grouping expressions have values on every row, and the aggregates can be
updated with every row of a group in turn. -/
structure Defined (input : List Row) : Prop where
  groupBy : ∀ r ∈ input, ∀ e ∈ a.groupBy, ∃ v, e.eval r = .ok v
  aggregates : ∀ k, ∀ f ∈ a.aggregates, ∃ s, f.fold f.initial (a.members input k) = .ok s

variable {a} {input : List Row} {row : Row}

theorem groupKey_eq_nil (h : a.groupBy.isEmpty = true) (r : Row) : a.groupKey r = [] := by
  simp [groupKey, groupValues, List.isEmpty_iff.mp h]

theorem mem_groupKeys {r : Row} (h : r ∈ input) : a.groupKey r ∈ a.groupKeys input := by
  unfold groupKeys
  split
  · rename_i hempty
    rw [groupKey_eq_nil hempty]
    exact List.mem_singleton_self _
  · exact List.mem_eraseDups.mpr (List.mem_map_of_mem h)

theorem nodup_groupKeys (input : List Row) : (a.groupKeys input).Nodup := by
  unfold groupKeys
  split
  · exact List.nodup_singleton _
  · exact nodup_eraseDups _

theorem members_eq_nil {k : List Key} (h : k ∉ a.groupKeys input) : a.members input k = [] := by
  rw [members, List.filter_eq_nil_iff]
  intro r hr hk
  exact h (of_decide_eq_true hk ▸ mem_groupKeys hr)

/-! ### One more row -/

theorem groupKeys_concat_of_mem (h : a.groupKey row ∈ a.groupKeys input) :
    a.groupKeys (input ++ [row]) = a.groupKeys input := by
  unfold groupKeys at h ⊢
  split at h
  · rename_i hempty
    rw [if_pos hempty, if_pos hempty]
  · rename_i hempty
    rw [if_neg hempty, if_neg hempty, List.map_append, List.map_singleton]
    exact eraseDups_concat_of_mem (List.mem_eraseDups.mp h)

theorem groupKeys_concat_of_not_mem (h : a.groupKey row ∉ a.groupKeys input) :
    a.groupKeys (input ++ [row]) = a.groupKeys input ++ [a.groupKey row] := by
  unfold groupKeys at h ⊢
  split at h
  · rename_i hempty
    exact absurd (groupKey_eq_nil hempty row) fun hk => h (hk ▸ List.mem_singleton_self _)
  · rename_i hempty
    rw [if_neg hempty, if_neg hempty, List.map_append, List.map_singleton]
    exact eraseDups_concat_of_not_mem fun hmem => h (List.mem_eraseDups.mpr hmem)

theorem members_concat (input : List Row) (row : Row) (k : List Key) :
    a.members (input ++ [row]) k =
      a.members input k ++ if a.groupKey row = k then [row] else [] := by
  rw [members, List.filter_append, members]
  by_cases h : a.groupKey row = k <;> simp [h]

theorem members_concat_self (input : List Row) (row : Row) :
    a.members (input ++ [row]) (a.groupKey row) = a.members input (a.groupKey row) ++ [row] := by
  rw [members_concat, if_pos rfl]

theorem members_concat_of_ne {k : List Key} (h : k ≠ a.groupKey row) :
    a.members (input ++ [row]) k = a.members input k := by
  rw [members_concat, if_neg (Ne.symm h), List.append_nil]

/-- The aggregates can be updated with one more row of a group. -/
def Extends (a : RowAggregation) (input : List Row) (row : Row) : Prop :=
  (∀ e ∈ a.groupBy, ∃ v, e.eval row = .ok v) ∧
    ∀ f ∈ a.aggregates, ∃ s, f.update (f.stateOver (a.members input (a.groupKey row))) row = .ok s

theorem Defined.fold_eq (h : a.Defined input) {f : RowAggregate} (hf : f ∈ a.aggregates)
    (k : List Key) :
    f.fold f.initial (a.members input k) = .ok (f.stateOver (a.members input k)) := by
  obtain ⟨s, hs⟩ := h.aggregates k f hf
  rw [RowAggregate.stateOver_of_fold hs, hs]

/-- The state of a row's group after the row. -/
theorem Defined.fold_concat (h : a.Defined input) {f : RowAggregate} (hf : f ∈ a.aggregates)
    (row : Row) : f.fold f.initial (a.members (input ++ [row]) (a.groupKey row)) =
      f.update (f.stateOver (a.members input (a.groupKey row))) row := by
  rw [members_concat_self, RowAggregate.fold_append, h.fold_eq hf, Result.ok_bind,
    RowAggregate.fold_singleton]

theorem defined_concat_iff :
    a.Defined (input ++ [row]) ↔ a.Defined input ∧ a.Extends input row := by
  constructor
  · intro h
    have hinput : a.Defined input := by
      refine ⟨fun r hr => h.groupBy r (List.mem_append_left _ hr), fun k f hf => ?_⟩
      obtain ⟨s, hs⟩ := h.aggregates k f hf
      rw [members_concat, RowAggregate.fold_append] at hs
      exact (Result.bind_eq_ok_iff.mp hs).imp fun _ => And.left
    refine ⟨hinput, h.groupBy row (by simp), fun f hf => ?_⟩
    rw [← hinput.fold_concat hf]
    exact h.aggregates _ f hf
  · rintro ⟨h, hvalues, hstates⟩
    refine ⟨fun r hr => ?_, fun k f hf => ?_⟩
    · rcases List.mem_append.mp hr with hr | hr
      · exact h.groupBy r hr
      · rw [List.mem_singleton.mp hr]
        exact hvalues
    · by_cases hk : k = a.groupKey row
      · rw [hk, h.fold_concat hf]
        exact hstates f hf
      · rw [members_concat_of_ne hk]
        exact h.aggregates k f hf

/-! ### The loop -/

/-- The group of a key: its values, and the states of the aggregates over its rows. -/
def groupOf (a : RowAggregation) (input : List Row) (k : List Key) : RowGroup :=
  ⟨a.valuesOf input k, a.aggregates.map fun f => f.stateOver (a.members input k)⟩

/-- The groups of some rows. -/
def groupsOf (a : RowAggregation) (input : List Row) : List (List Key × RowGroup) :=
  (a.groupKeys input).map fun k => (k, a.groupOf input k)

theorem valuesOf_concat_of_mem (h : a.groupKey row ∈ a.groupKeys input) :
    a.valuesOf (input ++ [row]) (a.groupKey row) = a.valuesOf input (a.groupKey row) := by
  rw [valuesOf, members_concat_self, valuesOf]
  cases hm : a.members input (a.groupKey row) with
  | cons r rs => rfl
  | nil =>
    -- Only the group of all rows can be without one; it has no values.
    unfold groupKeys at h
    split at h
    · rename_i hempty
      simp [groupValues, List.isEmpty_iff.mp hempty]
    · obtain ⟨r, hr, hk⟩ := List.mem_map.mp (List.mem_eraseDups.mp h)
      rw [members, List.filter_eq_nil_iff] at hm
      exact absurd (decide_eq_true hk) (hm r hr)

theorem addRow_eq_ok_iff {values : List Scalar} {state : RowAggregate → AggregateState}
    {g : RowGroup} : a.addRow row ⟨values, a.aggregates.map state⟩ = .ok g ↔
      (∀ f ∈ a.aggregates, ∃ s, f.update (state f) row = .ok s) ∧ g = ⟨values,
        a.aggregates.map fun f => (f.update (state f) row).toOption.getD (.count 0)⟩ := by
  rw [addRow, Result.bind_eq_ok_iff]
  dsimp only
  rw [← List.map_prod_left_eq_zip]
  simp only [List.mapM_map, Result.mapM_eq_ok_iff (AggregateState.count 0), Result.pure_eq_ok]
  constructor
  · rintro ⟨states, ⟨hf, rfl⟩, hg⟩
    cases hg
    exact ⟨hf, rfl⟩
  · rintro ⟨hf, rfl⟩
    exact ⟨_, ⟨hf, rfl⟩, rfl⟩

/-- **The group of a row** with the row in it, from the states that its aggregates had. -/
theorem addRow_groupOf_eq_ok_iff (h : a.Defined input) {g : RowGroup} :
    a.addRow row ⟨a.valuesOf (input ++ [row]) (a.groupKey row),
        a.aggregates.map fun f => f.stateOver (a.members input (a.groupKey row))⟩ = .ok g ↔
      (∀ f ∈ a.aggregates,
        ∃ s, f.update (f.stateOver (a.members input (a.groupKey row))) row = .ok s) ∧
        g = a.groupOf (input ++ [row]) (a.groupKey row) := by
  rw [addRow_eq_ok_iff]
  refine and_congr_right fun hstates => ?_
  rw [groupOf]
  have : ∀ f ∈ a.aggregates,
      (f.update (f.stateOver (a.members input (a.groupKey row))) row).toOption.getD (.count 0) =
        f.stateOver (a.members (input ++ [row]) (a.groupKey row)) := by
    intro f hf
    obtain ⟨s, hs⟩ := hstates f hf
    rw [hs, RowAggregate.stateOver_of_fold ((h.fold_concat hf row).trans hs)]
    rfl
  rw [List.map_congr_left this]

theorem groupOf_concat_of_ne {k : List Key} (h : k ≠ a.groupKey row) :
    a.groupOf (input ++ [row]) k = a.groupOf input k := by
  rw [groupOf, groupOf, valuesOf, valuesOf, members_concat_of_ne h]

/-- A row of a group that is there changes it. -/
theorem alterM_groupsOf_of_mem (h : a.Defined input) (hk : a.groupKey row ∈ a.groupKeys input)
    {groups : List (List Key × RowGroup)} :
    Grouping.alterM (a.groupKey row) (a.newGroup (a.groupValues row)) (a.addRow row)
        (a.groupsOf input) = .ok groups ↔
      (∀ f ∈ a.aggregates,
        ∃ s, f.update (f.stateOver (a.members input (a.groupKey row))) row = .ok s) ∧
        groups = a.groupsOf (input ++ [row]) := by
  have hupdate : (a.groupKeys input).map (fun l => (l, Function.update (a.groupOf input)
      (a.groupKey row) (a.groupOf (input ++ [row]) (a.groupKey row)) l)) =
        a.groupsOf (input ++ [row]) := by
    rw [groupsOf, groupKeys_concat_of_mem hk]
    refine List.map_congr_left fun l _ => ?_
    by_cases hl : l = a.groupKey row
    · rw [hl, Function.update_self]
    · rw [Function.update_of_ne hl, groupOf_concat_of_ne hl]
  rw [groupsOf, Grouping.alterM_map_of_mem (nodup_groupKeys input) hk, groupOf,
    ← valuesOf_concat_of_mem hk]
  constructor
  · intro hmap
    obtain ⟨g, hg, rfl⟩ := Result.map_eq_ok_iff.mp hmap
    obtain ⟨hstates, rfl⟩ := (addRow_groupOf_eq_ok_iff h).mp hg
    exact ⟨hstates, hupdate⟩
  · rintro ⟨hstates, rfl⟩
    exact Result.map_eq_ok_iff.mpr ⟨_, (addRow_groupOf_eq_ok_iff h).mpr ⟨hstates, rfl⟩, hupdate⟩

/-- The first row of a group opens it. -/
theorem alterM_groupsOf_of_not_mem (h : a.Defined input)
    (hk : a.groupKey row ∉ a.groupKeys input) {groups : List (List Key × RowGroup)} :
    Grouping.alterM (a.groupKey row) (a.newGroup (a.groupValues row)) (a.addRow row)
        (a.groupsOf input) = .ok groups ↔
      (∀ f ∈ a.aggregates,
        ∃ s, f.update (f.stateOver (a.members input (a.groupKey row))) row = .ok s) ∧
        groups = a.groupsOf (input ++ [row]) := by
  have hnew : a.newGroup (a.groupValues row) = ⟨a.valuesOf (input ++ [row]) (a.groupKey row),
      a.aggregates.map fun f => f.stateOver (a.members input (a.groupKey row))⟩ := by
    rw [valuesOf, members_concat_self, members_eq_nil hk]
    rfl
  have hopen : a.groupsOf input ++ [(a.groupKey row, a.groupOf (input ++ [row]) (a.groupKey row))] =
      a.groupsOf (input ++ [row]) := by
    rw [groupsOf, groupsOf, groupKeys_concat_of_not_mem hk, List.map_append, List.map_singleton]
    congr 1
    refine List.map_congr_left fun l hl => ?_
    rw [groupOf_concat_of_ne fun he => hk (he ▸ hl)]
  rw [groupsOf, Grouping.alterM_map_of_not_mem hk, hnew]
  constructor
  · intro hmap
    obtain ⟨g, hg, rfl⟩ := Result.map_eq_ok_iff.mp hmap
    obtain ⟨hstates, rfl⟩ := (addRow_groupOf_eq_ok_iff h).mp hg
    exact ⟨hstates, hopen⟩
  · rintro ⟨hstates, rfl⟩
    exact Result.map_eq_ok_iff.mpr ⟨_, (addRow_groupOf_eq_ok_iff h).mpr ⟨hstates, rfl⟩, hopen⟩

/-- **One row of the loop**: the groups of some rows become those of one more. -/
theorem step_groupsOf_eq_ok_iff (h : a.Defined input) {groups : List (List Key × RowGroup)} :
    a.step (a.groupsOf input) row = .ok groups ↔
      a.Extends input row ∧ groups = a.groupsOf (input ++ [row]) := by
  have halter : Grouping.alterM (a.groupKey row) (a.newGroup (a.groupValues row)) (a.addRow row)
      (a.groupsOf input) = .ok groups ↔ _ :=
    if hk : a.groupKey row ∈ a.groupKeys input then alterM_groupsOf_of_mem h hk
    else alterM_groupsOf_of_not_mem h hk
  rw [step, Result.bind_eq_ok_iff]
  simp only [RowExpr.mapM_eval_eq_ok_iff]
  constructor
  · rintro ⟨_, ⟨hvalues, rfl⟩, hstep⟩
    obtain ⟨hstates, hgroups⟩ := halter.mp hstep
    exact ⟨⟨hvalues, hstates⟩, hgroups⟩
  · rintro ⟨⟨hvalues, hstates⟩, hgroups⟩
    exact ⟨_, ⟨hvalues, rfl⟩, halter.mpr ⟨hstates, hgroups⟩⟩

theorem start_eq_groupsOf (a : RowAggregation) : a.start = a.groupsOf [] := by
  unfold start groupsOf groupKeys
  split <;> rfl

theorem defined_nil (a : RowAggregation) : a.Defined [] :=
  ⟨fun _ h => (nomatch h), fun _ f _ => ⟨f.initial, rfl⟩⟩

/-- **The invariant of the loop**: the groups after some rows are those of these rows, and none of
the rows failed. -/
theorem foldlM_step_eq_ok_iff {groups : List (List Key × RowGroup)} :
    input.foldlM a.step a.start = .ok groups ↔ a.Defined input ∧ groups = a.groupsOf input := by
  induction input using List.reverseRecOn generalizing groups with
  | nil =>
    rw [List.foldlM_nil, start_eq_groupsOf]
    simp [defined_nil, eq_comm]
  | append_singleton input row ih =>
    rw [List.foldlM_append, Result.bind_eq_ok_iff, defined_concat_iff]
    simp only [ih, List.foldlM_cons, List.foldlM_nil, bind_pure]
    constructor
    · rintro ⟨_, ⟨h, rfl⟩, hstep⟩
      obtain ⟨hext, rfl⟩ := (step_groupsOf_eq_ok_iff h).mp hstep
      exact ⟨⟨h, hext⟩, rfl⟩
    · rintro ⟨⟨h, hext⟩, rfl⟩
      exact ⟨_, ⟨h, rfl⟩, (step_groupsOf_eq_ok_iff h).mpr ⟨hext, rfl⟩⟩

/-! ### The output -/

theorem rows_eq_ok_iff {out : List Row} :
    a.rows input = .ok out ↔
      a.Defined input ∧ out = (a.groupKeys input).map (a.outputRow input) := by
  have hrow : ∀ k, groupRow (a.groupOf input k) = a.outputRow input k := by
    intro k
    simp [groupRow, groupOf, outputRow, Function.comp_def]
  rw [rows, Result.bind_eq_ok_iff]
  simp only [foldlM_step_eq_ok_iff, Result.pure_eq_ok, Except.ok.injEq]
  constructor
  · rintro ⟨_, ⟨h, rfl⟩, rfl⟩
    exact ⟨h, by simp [groupsOf, Function.comp_def, hrow]⟩
  · rintro ⟨h, rfl⟩
    exact ⟨_, ⟨h, rfl⟩, by simp [groupsOf, Function.comp_def, hrow]⟩

/-- **An aggregate over no groups** is one row with its result on all rows. -/
theorem rows_reduce {f : RowAggregate} {state : AggregateState}
    (h : f.fold f.initial input = .ok state) : rows ⟨[], [f]⟩ input = .ok [[state.result]] := by
  have hmembers : members ⟨[], [f]⟩ input [] = input :=
    List.filter_eq_self.mpr fun _ _ => decide_eq_true rfl
  have hdefined : Defined ⟨[], [f]⟩ input := by
    refine ⟨fun _ _ _ he => absurd he List.not_mem_nil, fun k g hg => ?_⟩
    rw [List.mem_singleton.mp hg]
    by_cases hk : k = []
    · rw [hk, hmembers]
      exact ⟨state, h⟩
    · -- The only group is that of the empty key.
      rw [members_eq_nil fun hmem => hk (List.mem_singleton.mp hmem)]
      exact ⟨_, f.fold_nil _⟩
  have hvalues : valuesOf ⟨[], [f]⟩ input [] = [] := by
    rw [valuesOf]
    cases (members ⟨[], [f]⟩ input []).head? <;> rfl
  refine rows_eq_ok_iff.mpr ⟨hdefined, ?_⟩
  change _ = [outputRow ⟨[], [f]⟩ input []]
  rw [outputRow, hvalues, List.map_singleton, hmembers, RowAggregate.stateOver_of_fold h,
    List.nil_append]

theorem length_valuesOf {k : List Key} (hk : k ∈ a.groupKeys input) :
    (a.valuesOf input k).length = a.groupBy.length := by
  unfold valuesOf
  cases hm : a.members input k with
  | cons r rs => simp [groupValues]
  | nil =>
    unfold groupKeys at hk
    split at hk
    · rename_i hempty
      simp [List.isEmpty_iff.mp hempty]
    · obtain ⟨r, hr, rfl⟩ := List.mem_map.mp (List.mem_eraseDups.mp hk)
      rw [members, List.filter_eq_nil_iff] at hm
      exact absurd (decide_eq_true rfl) (hm r hr)

theorem ofRows_outputRows (input : List Row) {types : List DataType}
    (hw : types.length = a.groupBy.length + a.aggregates.length) :
    Batch.ofRows types ((a.groupKeys input).map (a.outputRow input)) =
      .ok ⟨types, (a.groupKeys input).map (a.outputRow input)⟩ := by
  refine Batch.ofRows_eq_ok_iff.mpr ⟨fun r hr => ?_, rfl⟩
  obtain ⟨k, hk, rfl⟩ := List.mem_map.mp hr
  rw [outputRow, List.length_append, length_valuesOf hk, List.length_map, hw]

/-- The groups hold every row once. -/
theorem sum_length_members (input : List Row) :
    ((a.groupKeys input).map fun k => (a.members input k).length).sum = input.length :=
  sum_length_filter a.groupKey (nodup_groupKeys input) fun _ hr => mem_groupKeys hr

/-- Counting rows gives the number of rows of the group. -/
theorem outputRow_getElem?_countStar (h : a.Defined input) {i : Nat} {f : RowAggregate}
    (hi : a.aggregates[i]? = some f) (hf : f.function = .countStar) {k : List Key}
    (hk : k ∈ a.groupKeys input) : (a.outputRow input k)[a.groupBy.length + i]? =
      some (Scalar.ofCount (a.members input k).length) := by
  have hfold := h.fold_eq (List.mem_of_getElem? hi) k
  have hstart : f.initial = .count 0 := by rw [RowAggregate.initial, hf]; rfl
  rw [hstart] at hfold
  rw [outputRow,
    List.getElem?_append_right (by rw [length_valuesOf hk]; exact Nat.le_add_right _ _),
    length_valuesOf hk, Nat.add_sub_cancel_left, List.getElem?_map, hi,
    Option.map_some, RowAggregate.fold_countStar hf hfold, Nat.zero_add]
  rfl

/-- **An aggregation has one row for each group**: it succeeds exactly when nothing that it
evaluates fails, and then gives, for every key of the rows in the order of their first occurrences,
the values of the group's first row and the aggregates over the rows of the group. Without grouping
expressions there is one row, even for no input. Counts of rows add up to the number of rows. -/
theorem run_aggregate_eq_groups (a : RowAggregation) (provider : RowProvider) (b : Batch)
    {types : List DataType} (hw : types.length = a.groupBy.length + a.aggregates.length) :
    (∀ out, (Operator.aggregate a).run provider types [b] = .ok out ↔
      a.Defined b.rows ∧ out = ⟨types, (a.groupKeys b.rows).map (a.outputRow b.rows)⟩) ∧
    (a.groupBy = [] → a.groupKeys b.rows = [[]]) ∧
    (a.Defined b.rows → ∀ (i : Nat) (f : RowAggregate), a.aggregates[i]? = some f →
      f.function = .countStar →
        (∀ k ∈ a.groupKeys b.rows, (a.outputRow b.rows k)[a.groupBy.length + i]? =
          some (Scalar.ofCount (a.members b.rows k).length)) ∧
        ((a.groupKeys b.rows).map fun k => (a.members b.rows k).length).sum = b.numRows) := by
  refine ⟨fun out => ?_, fun h => by simp [groupKeys, h], fun h i f hi hf =>
    ⟨fun k hk => outputRow_getElem?_countStar h hi hf hk, sum_length_members b.rows⟩⟩
  have hrun : (Operator.aggregate a).run provider types [b] =
      a.rows b.rows >>= Batch.ofRows types := rfl
  rw [hrun, Result.bind_eq_ok_iff]
  simp only [rows_eq_ok_iff]
  constructor
  · rintro ⟨_, ⟨h, rfl⟩, hout⟩
    rw [ofRows_outputRows b.rows hw] at hout
    cases hout
    exact ⟨h, rfl⟩
  · rintro ⟨h, rfl⟩
    exact ⟨_, ⟨h, rfl⟩, ofRows_outputRows b.rows hw⟩

/-- Rows without a value to group by are a group, and it may come first. -/
theorem run_aggregate_nulls :
    let n : Int → Scalar := fun v => .int .int64 (Bounded.clamp _ _ (by decide) v)
    let a : RowAggregation := ⟨[.column 0 .boolean],
      [⟨.countStar, none, .int64⟩, ⟨.sum, some (.column 1 .int64), .int64⟩]⟩
    let b : Batch := ⟨[.boolean, .int64], [[.null, n 1], [.boolean true, n 10], [.null, n 2],
      [.boolean true, .null], [.null, .null]]⟩
    let types : List DataType := [.boolean, .int64, .int64]
    types.length = a.groupBy.length + a.aggregates.length ∧ a.Defined b.rows ∧
      (a.groupKeys b.rows).map (a.outputRow b.rows) =
        [[.null, n 3, n 3], [.boolean true, n 2, n 10]] := by
  intro n a b types
  have hw : types.length = a.groupBy.length + a.aggregates.length := rfl
  have hrun : (Operator.aggregate a).run ⟨fun _ => .ok .empty, fun _ => .ok .empty⟩ types [b] =
      .ok ⟨types, [[.null, n 3, n 3], [.boolean true, n 2, n 10]]⟩ := rfl
  obtain ⟨h, hout⟩ := ((run_aggregate_eq_groups a _ b hw).1 _).mp hrun
  exact ⟨hw, h, (congrArg Batch.rows hout).symm⟩

end RowAggregation

end TableQuery
