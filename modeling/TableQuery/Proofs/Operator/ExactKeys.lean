import TableQuery.Proofs.Aggregation.Groups
import TableQuery.Proofs.Join.NestedLoop
import TableQuery.Proofs.Scalar.Exact

/-! # Keys of integers and decimals

Grouping, joins and distinct counting see values by their keys. The keys of integers and decimals
are equal exactly when their numbers are, whatever the width, the scale and the zeros at the end
(`Scalar.key_eq_iff_number?`), so on columns of such values and nulls the operators work as if they
saw the numbers. `exact_keys` says this of the keys and of the three operators. -/

namespace TableQuery

/-! ### Lists without repetitions -/

section EraseDups

variable {α β κ ν : Type} [BEq κ] [LawfulBEq κ] [BEq ν] [LawfulBEq ν] {f : α → κ} {g : α → ν}

/-- **Elements may be told apart by other marks** that are equal for the same elements. -/
theorem map_eraseDups_map_congr {F : κ → β} {G : ν → β} {xs : List α}
    (h : ∀ x ∈ xs, ∀ y ∈ xs, (f x = f y ↔ g x = g y)) (hFG : ∀ x ∈ xs, F (f x) = G (g x)) :
    (xs.map f).eraseDups.map F = (xs.map g).eraseDups.map G := by
  induction xs using List.reverseRecOn with
  | nil => rfl
  | append_singleton xs x ih =>
    have hmem : f x ∈ xs.map f ↔ g x ∈ xs.map g := by
      simp only [List.mem_map]
      refine exists_congr fun y => and_congr_right fun hy => ?_
      exact h y (List.mem_append_left _ hy) x (by simp)
    have ih := ih (fun y hy z hz => h y (List.mem_append_left _ hy) z (List.mem_append_left _ hz))
      fun y hy => hFG y (List.mem_append_left _ hy)
    rw [List.map_append, List.map_append, List.map_singleton, List.map_singleton]
    by_cases hx : f x ∈ xs.map f
    · rw [eraseDups_concat_of_mem hx, eraseDups_concat_of_mem (hmem.mp hx), ih]
    · rw [eraseDups_concat_of_not_mem hx, eraseDups_concat_of_not_mem (mt hmem.mpr hx),
        List.map_append, List.map_append, ih, List.map_singleton, List.map_singleton,
        hFG x (by simp)]

theorem length_eraseDups_map_congr {xs : List α}
    (h : ∀ x ∈ xs, ∀ y ∈ xs, (f x = f y ↔ g x = g y)) :
    (xs.map f).eraseDups.length = (xs.map g).eraseDups.length := by
  simpa using congrArg List.length
    (map_eraseDups_map_congr (F := fun _ => ()) (G := fun _ => ()) h fun _ _ => rfl)

end EraseDups

/-! ### Keys -/

namespace Scalar

/-- The values of integer and decimal columns. -/
def ExactOrNull (a : Scalar) : Prop := a.isNull = true ∨ a.isExact = true

instance (a : Scalar) : Decidable a.ExactOrNull := inferInstanceAs (Decidable (_ ∨ _))

theorem number?_of_isExact {a : Scalar} (h : a.isExact = true) :
    a.number? = some ((a.unscaled : ℚ) / 10 ^ a.places) := by
  cases a with
  | int t v => simp [number?, unscaled, places]
  | decimal d => rfl
  | _ => cases h

/-- **The keys of exact numbers** are equal when the numbers are, and those of nulls are. -/
theorem key_eq_iff_number? {a b : Scalar} (ha : a.ExactOrNull) (hb : b.ExactOrNull) :
    a.key = b.key ↔ a.number? = b.number? := by
  have hnull : ∀ {u : Int} {s : Nat}, Key.null ≠ .ofDecimal u s := by
    intro u s h
    rcases Key.ofDecimal_cases u s with ⟨n, hn⟩ | ⟨n, t, hn⟩ <;> rw [hn] at h <;> cases h
  rcases ha with ha | ha <;> rcases hb with hb | hb
  · rw [isNull_iff.mp ha, isNull_iff.mp hb]
    simp
  · obtain ⟨w, t, hkey, hnum, -⟩ := exists_key_eq_ofDecimal hb
    rw [hkey, hnum, isNull_iff.mp ha]
    exact iff_of_false hnull nofun
  · obtain ⟨u, s, hkey, hnum, -⟩ := exists_key_eq_ofDecimal ha
    rw [hkey, hnum, isNull_iff.mp hb]
    exact iff_of_false hnull.symm nofun
  · obtain ⟨u, s, hakey, hanum, -⟩ := exists_key_eq_ofDecimal ha
    obtain ⟨w, t, hbkey, hbnum, -⟩ := exists_key_eq_ofDecimal hb
    rw [hakey, hbkey, hanum, hbnum, Key.ofDecimal_eq_iff, Option.some_inj, div_pow_eq_iff]

theorem map_key_eq_iff : ∀ {xs ys : List Scalar}, (∀ v ∈ xs, v.ExactOrNull) →
    (∀ v ∈ ys, v.ExactOrNull) → (xs.map key = ys.map key ↔ xs.map number? = ys.map number?)
  | [], [], _, _ | [], _ :: _, _, _ | _ :: _, [], _, _ => by simp
  | x :: xs, y :: ys, hxs, hys => by
    obtain ⟨hx, hxs⟩ := List.forall_mem_cons.mp hxs
    obtain ⟨hy, hys⟩ := List.forall_mem_cons.mp hys
    simp only [List.map_cons, List.cons.injEq]
    rw [key_eq_iff_number? hx hy, map_key_eq_iff hxs hys]

end Scalar

/-! ### Grouping -/

namespace RowAggregation

variable (a : RowAggregation)

/-- The numbers that a row is grouped by. -/
def groupNumbers (row : Row) : List (Option ℚ) := (a.groupValues row).map Scalar.number?

/-- The numbers of the groups, in the order of their first rows; a single group if there is nothing
to group by. -/
def numberGroups (input : List Row) : List (List (Option ℚ)) :=
  if a.groupBy.isEmpty then [[]] else (input.map a.groupNumbers).eraseDups

/-- The rows that have the numbers of a group. -/
def rowsOf (input : List Row) (ns : List (Option ℚ)) : List Row :=
  input.filter fun r => a.groupNumbers r = ns

/-- The output row of a group: the values of its first row, and the aggregates over its rows. -/
def numberRow (input : List Row) (ns : List (Option ℚ)) : Row :=
  (a.rowsOf input ns).head?.elim [] a.groupValues ++
    a.aggregates.map fun f => (f.stateOver (a.rowsOf input ns)).result

variable {a} {input : List Row}

theorem groupKey_eq_iff (h : ∀ r ∈ input, ∀ v ∈ a.groupValues r, v.ExactOrNull) {r s : Row}
    (hr : r ∈ input) (hs : s ∈ input) :
    a.groupKey r = a.groupKey s ↔ a.groupNumbers r = a.groupNumbers s :=
  Scalar.map_key_eq_iff (h r hr) (h s hs)

/-- The rows of a group are those of its numbers. -/
theorem members_eq_rowsOf (h : ∀ r ∈ input, ∀ v ∈ a.groupValues r, v.ExactOrNull) {r : Row}
    (hr : r ∈ input) : a.members input (a.groupKey r) = a.rowsOf input (a.groupNumbers r) :=
  List.filter_congr fun s hs => by simp only [groupKey_eq_iff h hs hr]

/-- **Groups of exact numbers**: one for each list of numbers. -/
theorem map_outputRow_groupKeys (h : ∀ r ∈ input, ∀ v ∈ a.groupValues r, v.ExactOrNull) :
    (a.groupKeys input).map (a.outputRow input) =
      (a.numberGroups input).map (a.numberRow input) := by
  have hrow : ∀ k ns, a.members input k = a.rowsOf input ns →
      a.outputRow input k = a.numberRow input ns := by
    intro k ns hmembers
    rw [outputRow, valuesOf, hmembers, numberRow]
  unfold groupKeys numberGroups
  split
  · rename_i hempty
    have hvalues : ∀ r, a.groupValues r = [] := fun r => by
      simp [groupValues, List.isEmpty_iff.mp hempty]
    rw [List.map_singleton, List.map_singleton, hrow [] []]
    simp [members, rowsOf, groupKey, groupNumbers, hvalues]
  · exact map_eraseDups_map_congr (fun r hr s hs => groupKey_eq_iff h hr hs)
      fun r hr => hrow _ _ (members_eq_rowsOf h hr)

end RowAggregation

/-! ### Joins -/

namespace RowJoin

/-- The numbers at some positions of a row. -/
def numbersAt (positions : List Nat) (row : Row) : List (Option ℚ) :=
  positions.map fun i => (row[i]?.getD .null).number?

/-- The values at some positions of a row are exact numbers or null. -/
def ExactAt (positions : List Nat) (row : Row) : Prop :=
  ∀ i ∈ positions, (row[i]?.getD .null).ExactOrNull

instance (positions : List Nat) (row : Row) : Decidable (ExactAt positions row) :=
  inferInstanceAs (Decidable (∀ i ∈ positions, _))

theorem null_mem_keysAt_iff {positions : List Nat} {row : Row} (h : ExactAt positions row) :
    Key.null ∈ keysAt positions row ↔ none ∈ numbersAt positions row := by
  simp only [keysAt, numbersAt, List.mem_map]
  refine exists_congr fun i => and_congr_right fun hi => ?_
  exact Scalar.key_eq_iff_number? (b := .null) (h i hi) (.inl rfl)

/-- **Rows match by their numbers.** -/
theorem matches_iff (j : RowJoin) {l r : Row} (hl : ExactAt j.leftKeys l)
    (hr : ExactAt j.rightKeys r) : j.Matches l r ↔
      (none ∉ numbersAt j.leftKeys l ∧ numbersAt j.leftKeys l = numbersAt j.rightKeys r) ∧
        j.residualTrue l r = true := by
  have hvalues : ∀ {positions row}, ExactAt positions row →
      ∀ v ∈ positions.map fun i => row[i]?.getD Scalar.null, v.ExactOrNull := by
    intro positions row h v hv
    obtain ⟨i, hi, rfl⟩ := List.mem_map.mp hv
    exact h i hi
  have hkeys : keysAt j.leftKeys l = keysAt j.rightKeys r ↔
      numbersAt j.leftKeys l = numbersAt j.rightKeys r := by
    have h := Scalar.map_key_eq_iff (hvalues hl) (hvalues hr)
    rwa [List.map_map, List.map_map, List.map_map, List.map_map] at h
  rw [Matches, SameKeys, null_mem_keysAt_iff hl, null_mem_keysAt_iff hr, hkeys]
  refine and_congr_left fun _ => ?_
  constructor
  · exact fun h => ⟨h.1, h.2.2⟩
  · exact fun h => ⟨h.1, h.2 ▸ h.1, h.2⟩

end RowJoin

/-! ### Distinct counting -/

namespace RowAggregate

/-- The values of an expression on some rows that are not null. -/
def inputsOf (e : RowExpr) (rows : List Row) : List Scalar :=
  (rows.map fun r => e.valueOn r).filter fun v => !v.isNull

theorem inputsOf_concat (e : RowExpr) (rows : List Row) (r : Row) :
    inputsOf e (rows ++ [r]) =
      inputsOf e rows ++ if (e.valueOn r).isNull then [] else [e.valueOn r] := by
  rw [inputsOf, List.map_append, List.filter_append, inputsOf, List.map_singleton]
  cases h : (e.valueOn r).isNull <;> simp [h]

variable {f : RowAggregate} {e : RowExpr}

/-- One more row adds its key, unless it is there or its value is null. -/
theorem update_countDistinct (hf : f.function = .countDistinct) (he : f.input = some e)
    {r : Row} (h : ∃ v, e.eval r = .ok v) (ks : List Key) :
    f.update (.distinct ks) r = .ok (.distinct (if (e.valueOn r).isNull then ks
      else if (e.valueOn r).key ∈ ks then ks else (e.valueOn r).key :: ks)) := by
  obtain ⟨v, hv⟩ := h
  rw [update_of_eval he hv, hf, RowExpr.valueOn_of_eval hv]
  change (if v.isNull then _ else _) = _
  split <;> rfl

/-- **The state of distinct counting** is the list of different keys, the latest first. -/
theorem fold_countDistinct (hf : f.function = .countDistinct) (he : f.input = some e)
    {rows : List Row} (h : ∀ r ∈ rows, ∃ v, e.eval r = .ok v) : f.fold f.initial rows =
      .ok (.distinct ((inputsOf e rows).map Scalar.key).eraseDups.reverse) := by
  induction rows using List.reverseRecOn with
  | nil =>
    rw [fold_nil, initial, hf]
    rfl
  | append_singleton rows r ih =>
    rw [fold_append, ih fun s hs => h s (List.mem_append_left _ hs), Result.ok_bind, fold_singleton,
      update_countDistinct hf he (h r (by simp)), inputsOf_concat, List.map_append]
    by_cases hnull : (e.valueOn r).isNull = true
    · simp [hnull]
    · rw [if_neg hnull, if_neg hnull, List.map_singleton]
      by_cases hmem : (e.valueOn r).key ∈ (inputsOf e rows).map Scalar.key
      · rw [if_pos (by simpa using hmem), eraseDups_concat_of_mem hmem]
      · rw [if_neg (by simpa using hmem), eraseDups_concat_of_not_mem hmem, List.reverse_append]
        rfl

/-- **Distinct counting counts numbers**, nulls apart. -/
theorem count_numbers (hf : f.function = .countDistinct) (he : f.input = some e)
    {rows : List Row} (h : ∀ r ∈ rows, ∃ v, e.eval r = .ok v ∧ v.ExactOrNull) :
    (f.fold f.initial rows).map AggregateState.result =
      .ok (Scalar.ofCount ((inputsOf e rows).map Scalar.number?).eraseDups.length) := by
  have hexact : ∀ v ∈ inputsOf e rows, v.ExactOrNull := by
    intro v hv
    obtain ⟨r, hr, rfl⟩ := List.mem_map.mp (List.mem_filter.mp hv).1
    obtain ⟨v, heval, hv⟩ := h r hr
    rw [RowExpr.valueOn_of_eval heval]
    exact hv
  rw [fold_countDistinct hf he fun r hr => (h r hr).imp fun _ => And.left]
  have hlength := length_eraseDups_map_congr (f := Scalar.key) (g := Scalar.number?)
    fun v hv w hw => Scalar.key_eq_iff_number? (hexact v hv) (hexact w hw)
  rw [← hlength, ← List.length_reverse]
  rfl

end RowAggregate

/-! ### All together -/

/-- **Keys of integers and decimals are a canonical form**: they are equal exactly when the numbers
are. On values that are integers, decimals or null, an aggregation has one group for each list of
numbers, rows of a join match when their numbers are there and equal, and distinct counting counts
the different numbers. -/
theorem exact_keys :
    (∀ a b : Scalar, a.isExact = true → b.isExact = true →
      (a.key = b.key ↔ (a.unscaled : ℚ) / 10 ^ a.places = b.unscaled / 10 ^ b.places)) ∧
    (∀ (a : RowAggregation) (input out : List Row),
      (∀ r ∈ input, ∀ v ∈ a.groupValues r, v.ExactOrNull) →
        (a.rows input = .ok out ↔
          a.Defined input ∧ out = (a.numberGroups input).map (a.numberRow input))) ∧
    (∀ (j : RowJoin) (left right : List Row), j.ResidualDefined left right →
      (∀ l ∈ left, RowJoin.ExactAt j.leftKeys l) → (∀ r ∈ right, RowJoin.ExactAt j.rightKeys r) →
        j.rows left right = .ok ((j.nestedLoop left right).map j.emitPair) ∧
        ∀ l ∈ left, ∀ r ∈ right, (j.Matches l r ↔ (none ∉ RowJoin.numbersAt j.leftKeys l ∧
          RowJoin.numbersAt j.leftKeys l = RowJoin.numbersAt j.rightKeys r) ∧
            j.residualTrue l r = true)) ∧
    ∀ (f : RowAggregate) (e : RowExpr) (rows : List Row), f.function = .countDistinct →
      f.input = some e → (∀ r ∈ rows, ∃ v, e.eval r = .ok v ∧ v.ExactOrNull) →
        (f.fold f.initial rows).map AggregateState.result =
          .ok (Scalar.ofCount
            ((RowAggregate.inputsOf e rows).map Scalar.number?).eraseDups.length) := by
  refine ⟨fun a b ha hb => ?_, fun a input out h => ?_, fun j left right h hl hr => ?_,
    fun f e rows hf he h => RowAggregate.count_numbers hf he h⟩
  · rw [Scalar.key_eq_iff_number? (.inr ha) (.inr hb), Scalar.number?_of_isExact ha,
      Scalar.number?_of_isExact hb, Option.some_inj]
  · rw [RowAggregation.rows_eq_ok_iff, RowAggregation.map_outputRow_groupKeys h]
  · exact ⟨j.rows_eq h, fun l hll r hrr => j.matches_iff (hl l hll) (hr r hrr)⟩

/-- `-1.00` is the integer `-1`, and not `-1.50`; a null is a group, but no key of a join and no
value that is counted. -/
theorem exact_keys_zeros :
    let whole : Scalar := .decimal ⟨⟨-100, by decide, by decide⟩, 2⟩
    let one : Scalar := .int .int8 ⟨-1, by decide, by decide⟩
    let more : Scalar := .decimal ⟨⟨-150, by decide, by decide⟩, 2⟩
    let n : Int → Scalar := fun v => .int .int64 (Bounded.clamp _ _ (by decide) v)
    let a : RowAggregation := ⟨[.column 0 (.decimal 3 2)], [⟨.countStar, none, .int64⟩]⟩
    let rows : List Row := [[whole], [more], [.null], [one]]
    let j : RowJoin := ⟨.inner, [0], [0], none, [.left 0, .right 0]⟩
    let f : RowAggregate := ⟨.countDistinct, some (.column 0 (.decimal 3 2)), .int64⟩
    whole.key = one.key ∧ whole.key ≠ more.key ∧
      (a.numberGroups rows).map (a.numberRow rows) = [[whole, n 2], [more, n 1], [.null, n 1]] ∧
      j.Matches [whole] [one] ∧ ¬ j.Matches [whole] [more] ∧ ¬ j.Matches [.null] [.null] ∧
      (f.fold f.initial rows).map AggregateState.result = .ok (n 2) := by
  intro whole one more n a rows j f
  have hjoin := (exact_keys.2.2.1 j rows rows (fun e he => nomatch he) (by decide) (by decide)).2
  refine ⟨(exact_keys.1 whole one rfl rfl).mpr ?_, mt (exact_keys.1 whole more rfl rfl).mp ?_, ?_,
    (hjoin [whole] (by simp [rows]) [one] (by simp [rows])).mpr ?_,
    mt (hjoin [whole] (by simp [rows]) [more] (by simp [rows])).mp ?_,
    mt (hjoin [.null] (by simp [rows]) [.null] (by simp [rows])).mp ?_, ?_⟩
  · norm_num [whole, one, Scalar.unscaled, Scalar.places]
  · norm_num [whole, more, Scalar.unscaled, Scalar.places]
  · have hrows : a.rows rows = .ok [[whole, n 2], [more, n 1], [.null, n 1]] := rfl
    exact ((exact_keys.2.1 a rows _ (by decide)).mp hrows).2.symm
  · refine ⟨⟨by simp [j, RowJoin.numbersAt, whole, Scalar.number?], ?_⟩, rfl⟩
    norm_num [j, RowJoin.numbersAt, whole, one, Scalar.number?]
  · norm_num [j, RowJoin.numbersAt, whole, more, Scalar.number?]
  · simp [j, RowJoin.numbersAt, Scalar.number?]
  · have hvalues : ∀ r ∈ rows,
        ∃ v, (RowExpr.column 0 (.decimal 3 2)).eval r = .ok v ∧ v.ExactOrNull := by
      intro r hr
      simp only [rows, List.mem_cons, List.not_mem_nil, or_false] at hr
      rcases hr with rfl | rfl | rfl | rfl <;> exact ⟨_, rfl, by decide⟩
    have hlength : ((RowAggregate.inputsOf (.column 0 (.decimal 3 2)) rows).map
        Scalar.number?).eraseDups.length = 2 := by decide +kernel
    rw [exact_keys.2.2.2 f _ rows rfl rfl hvalues, hlength]
    rfl

end TableQuery
