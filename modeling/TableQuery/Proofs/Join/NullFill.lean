import TableQuery.Operator.Lower
import TableQuery.Proofs.Batch.Nulls
import TableQuery.Proofs.DataType
import TableQuery.Proofs.Join.NestedLoop
import TableQuery.Proofs.Schema
import TableQuery.Relation.JoinPlanner

/-! # Nulls in the rows of joins

A join fills the columns of a missing row with nulls. The planner foresees them in the types of the
output columns, by the kind of the join and the source of each column (`planOutputs_nullFree`).
Running the join emits a row for a pair of rows, or for a row of one side where the kind keeps it
(`exists_of_mem_rows`), and there a source that the planner takes for free of nulls has a value
(`NullFree.value_ne_null`). Together, no row of a planned join has a null in a column whose type
admits none (`run_plan_nullsAdmitted`). -/

namespace TableQuery

/-! ### The rows of a join -/

namespace RowJoin

variable {j : RowJoin} {left right : List Row}

/-- **The pairs of rows that a join emits rows for**: two rows, or one of a side that it keeps. -/
inductive Emitted (kind : JoinKind) (left right : List Row) : Option Row → Option Row → Prop
  | pair {l r : Row} : kind.leftOnly = false → l ∈ left → r ∈ right →
      Emitted kind left right (some l) (some r)
  | leftAlone {l : Row} : kind.keepsLeft = true ∨ kind.leftOnly = true → l ∈ left →
      Emitted kind left right (some l) none
  | rightAlone {r : Row} : kind.keepsRight = true → r ∈ right →
      Emitted kind left right none (some r)

/-- The search finds some of the candidates. -/
theorem matching_sublist {l : Row} : ∀ {cs ps : List Placed}, j.matching l cs = .ok ps →
    ps.Sublist cs
  | [], _, h => by
    cases h
    exact .slnil
  | c :: cs, ps, h => by
    obtain ⟨accepted, -, h⟩ := Result.bind_eq_ok_iff.mp h
    cases accepted with
    | false => exact (matching_sublist h).cons c
    | true =>
      by_cases hk : j.kind.leftOnly = true
      · simp only [hk, if_true, Result.pure_eq_ok, Except.ok.injEq] at h
        subst h
        exact (List.nil_sublist cs).cons_cons c
      · simp only [hk, if_true, if_false, Bool.false_eq_true] at h
        obtain ⟨qs, hqs, h⟩ := Result.bind_eq_ok_iff.mp h
        cases h
        exact (matching_sublist hqs).cons_cons c

theorem mem_of_mem_matching {l : Row} {ps : List Placed}
    (h : j.matching l (j.candidates (j.index right) l) = .ok ps) {p : Placed} (hp : p ∈ ps) :
    p.1 ∈ right := by
  have hc := (matching_sublist h).subset hp
  rw [candidates_eq, List.mem_filter] at hc
  exact List.fst_mem_of_mem_zipIdx hc.1

theorem emitted_of_mem_emitLeft {l : Row} {ps : List Placed} {row : Row} (hl : l ∈ left)
    (hps : ∀ p ∈ ps, p.1 ∈ right) (h : row ∈ j.emitLeft l ps) :
    ∃ lo ro, Emitted j.kind left right lo ro ∧ row = j.emit lo ro := by
  have halone : j.kind.keepsLeft = true ∨ j.kind.leftOnly = true →
      row ∈ [j.emit (some l) none] →
        ∃ lo ro, Emitted j.kind left right lo ro ∧ row = j.emit lo ro :=
    fun hk hrow => ⟨some l, none, .leftAlone hk hl, List.mem_singleton.mp hrow⟩
  have hpairs : j.kind.leftOnly = false → row ∈ ps.map (fun p => j.emit (some l) (some p.1)) →
      ∃ lo ro, Emitted j.kind left right lo ro ∧ row = j.emit lo ro := by
    intro hk hrow
    obtain ⟨p, hp, rfl⟩ := List.mem_map.mp hrow
    exact ⟨some l, some p.1, .pair hk hl (hps p hp), rfl⟩
  unfold emitLeft at h
  split at h
  · rename_i hk
    split at h
    · cases h
    · exact halone (.inr (by rw [hk]; rfl)) h
  · rename_i hk
    split at h
    · exact halone (.inr (by rw [hk]; rfl)) h
    · cases h
  · rename_i hsemi hanti
    split at h
    · rename_i hkeep
      exact halone (.inl (Bool.and_eq_true_iff.mp hkeep).2) h
    · refine hpairs ?_ h
      cases hk : j.kind <;> simp_all [JoinKind.leftOnly]

/-- **Every row of a join** is emitted for rows of its inputs. -/
theorem exists_of_mem_rows {rows : List Row} (h : j.rows left right = .ok rows) {row : Row}
    (hrow : row ∈ rows) : ∃ lo ro, Emitted j.kind left right lo ro ∧ row = j.emit lo ro := by
  obtain ⟨found, hfound, h⟩ := Result.bind_eq_ok_iff.mp h
  cases h
  rcases List.mem_append.mp hrow with hrow | hrow
  · obtain ⟨⟨l, ps⟩, hzip, hrow⟩ := List.mem_flatMap.mp hrow
    have hps := List.forall₂_zip (Result.forall₂_of_mapM hfound) hzip
    exact emitted_of_mem_emitLeft (List.of_mem_zip hzip).1 (fun p => mem_of_mem_matching hps) hrow
  · unfold emitUnmatched at hrow
    split at hrow
    · rename_i hk
      obtain ⟨p, hp, rfl⟩ := List.mem_map.mp hrow
      have hr : p.1 ∈ right := List.fst_mem_of_mem_zipIdx (List.mem_filter.mp hp).1
      exact ⟨none, some p.1, .rightAlone hk hr, rfl⟩
    · cases hrow

end RowJoin

/-! ### Sources without nulls -/

theorem JoinKind.keepsLeft_eq_nullsRight (kind : JoinKind) : kind.keepsLeft = kind.nullsRight := by
  cases kind <;> rfl

theorem JoinKind.keepsRight_eq_nullsLeft (kind : JoinKind) : kind.keepsRight = kind.nullsLeft := by
  cases kind <;> rfl

/-- **The source has a value for every row of the join**: a side that no kept row goes without, or
both sides in turn, in columns that admit no null. -/
def RowSource.NullFree (kind : JoinKind) (left right : List DataType) : RowSource → Prop
  | .left i => kind.nullsLeft = false ∧ ∃ t, left[i]? = some t ∧ t.nullable = false
  | .right i => kind.nullsRight = false ∧ kind.leftOnly = false ∧
      ∃ t, right[i]? = some t ∧ t.nullable = false
  | .coalesce i k => (∃ t, left[i]? = some t ∧ t.nullable = false) ∧
      ∃ t, right[k]? = some t ∧ t.nullable = false

/-- The same of the names of columns. -/
def JoinSource.NullFree (kind : JoinKind) (left right : Schema) : JoinSource → Prop
  | .left n => kind.nullsLeft = false ∧ ∃ t, left.type? n = some t ∧ t.nullable = false
  | .right n => kind.nullsRight = false ∧ kind.leftOnly = false ∧
      ∃ t, right.type? n = some t ∧ t.nullable = false
  | .coalesce l r => (∃ t, left.type? l = some t ∧ t.nullable = false) ∧
      ∃ t, right.type? r = some t ∧ t.nullable = false

namespace RowSource

theorem NullFree.value_ne_null {kind : JoinKind} {ls rs : List DataType} {s : RowSource}
    {left right : List Row} {lo ro : Option Row} (hs : s.NullFree kind ls rs)
    (hl : ∀ l ∈ left, l.NullsAdmitted ls) (hr : ∀ r ∈ right, r.NullsAdmitted rs)
    (h : RowJoin.Emitted kind left right lo ro) : s.value lo ro ≠ .null := by
  have hleft : ∀ {i l}, l ∈ left → (∃ t, ls[i]? = some t ∧ t.nullable = false) →
      read (some l) i ≠ .null := fun hmem ⟨t, ht, hn⟩ => hl _ hmem _ t ht hn
  have hright : ∀ {i r}, r ∈ right → (∃ t, rs[i]? = some t ∧ t.nullable = false) →
      read (some r) i ≠ .null := fun hmem ⟨t, ht, hn⟩ => hr _ hmem _ t ht hn
  cases s with
  | left i =>
    obtain ⟨hk, ht⟩ := hs
    cases h with
    | pair _ hmem _ => exact hleft hmem ht
    | leftAlone _ hmem => exact hleft hmem ht
    | rightAlone hkeep _ =>
      rw [JoinKind.keepsRight_eq_nullsLeft, hk] at hkeep
      cases hkeep
  | right i =>
    obtain ⟨hk, honly, ht⟩ := hs
    cases h with
    | pair _ _ hmem => exact hright hmem ht
    | rightAlone _ hmem => exact hright hmem ht
    | leftAlone hkeep _ =>
      rw [JoinKind.keepsLeft_eq_nullsRight, hk, honly] at hkeep
      simp at hkeep
  | coalesce i k =>
    obtain ⟨htl, htr⟩ := hs
    rw [value]
    cases h with
    | pair _ hml _ | leftAlone _ hml =>
      rw [if_neg (by simpa using hleft hml htl)]
      exact hleft hml htl
    | rightAlone _ hmr =>
      rw [if_pos (by simp [read])]
      exact hright hmr htr

end RowSource

theorem Schema.types_of_joinIndex {s : Schema} {side name : String} {i : Nat} {t : DataType}
    (hi : s.joinIndex side name = .ok i) (ht : s.type? name = some t) : s.types[i]? = some t := by
  unfold Schema.joinIndex at hi
  split at hi <;> cases hi
  exact Schema.types_of_index? (by assumption) ht

/-- Positions keep a source free of nulls. -/
theorem Join.nullFree_of_rowSource {kind : JoinKind} {left right : Schema} {o : JoinOutput}
    {s : RowSource} (h : Join.rowSource left right o = .ok s)
    (ho : o.source.NullFree kind left right) : s.NullFree kind left.types right.types := by
  obtain ⟨name, source⟩ := o
  cases source with
  | left n =>
    obtain ⟨i, hi, rfl⟩ := Result.map_eq_ok_iff.mp h
    obtain ⟨hk, t, ht, hn⟩ := ho
    exact ⟨hk, t, Schema.types_of_joinIndex hi ht, hn⟩
  | right n =>
    obtain ⟨i, hi, rfl⟩ := Result.map_eq_ok_iff.mp h
    obtain ⟨hk, honly, t, ht, hn⟩ := ho
    exact ⟨hk, honly, t, Schema.types_of_joinIndex hi ht, hn⟩
  | coalesce l r =>
    obtain ⟨i, hi, h⟩ := Result.bind_eq_ok_iff.mp h
    obtain ⟨k, hk, h⟩ := Result.bind_eq_ok_iff.mp h
    cases h
    obtain ⟨⟨t, ht, hn⟩, u, hu, hm⟩ := ho
    exact ⟨⟨t, Schema.types_of_joinIndex hi ht, hn⟩, u, Schema.types_of_joinIndex hk hu, hm⟩

/-! ### The types of output columns -/

namespace JoinInputs

variable {inputs : JoinInputs} {kind : JoinKind} {conditions : List JoinCondition}

theorem collapsedKey_nullFree {name : String} {l r : DataType}
    (hl : inputs.left.type? name = some l) (hr : inputs.right.type? name = some r)
    (h : (collapsedKey kind name l r).2.nullable = false) :
    (collapsedKey kind name l r).1.NullFree kind inputs.left inputs.right := by
  cases kind with
  | right => exact ⟨rfl, rfl, r, hr, h⟩
  | full =>
    obtain ⟨hln, hrn⟩ := Bool.or_eq_false_iff.mp (DataType.eq_false_of_nullable_withNullable h)
    exact ⟨⟨l, hl, hln⟩, r, hr, hrn⟩
  | inner | left | semi | anti => exact ⟨rfl, l, hl, h⟩

/-- A type that a kind of join makes nullable where it fills with nulls. -/
theorem nullable_of_filled {fills : Bool} {t : DataType}
    (h : (if fills then t.withNullable true else t).nullable = false) :
    fills = false ∧ t.nullable = false := by
  cases fills with
  | false => exact ⟨rfl, h⟩
  | true => cases DataType.eq_false_of_nullable_withNullable h

theorem leftOutput_nullFree {collapsed : List String} {field : String × DataType}
    {out : TypedOutput} (hfield : field ∈ inputs.left.fields)
    (h : inputs.leftOutput kind collapsed field = .ok out) (hn : out.2.nullable = false) :
    out.1.source.NullFree kind inputs.left inputs.right := by
  obtain ⟨name, t⟩ := field
  have ht : inputs.left.type? name = some t := Schema.type?_eq_some_iff.mpr hfield
  unfold leftOutput at h
  dsimp only at h
  split at h
  · obtain ⟨u, hu, h⟩ := Result.bind_eq_ok_iff.mp h
    cases h
    exact collapsedKey_nullFree ht (Schema.typeOf_eq_ok_iff.mp hu) hn
  · cases h
    obtain ⟨hk, hn⟩ := nullable_of_filled hn
    exact ⟨hk, t, ht, hn⟩

theorem rightOutput_nullFree {field : String × DataType} (hfield : field ∈ inputs.right.fields)
    (hk : kind.leftOnly = false) (hn : (inputs.rightOutput kind field).2.nullable = false) :
    (inputs.rightOutput kind field).1.source.NullFree kind inputs.left inputs.right := by
  obtain ⟨hfill, hn⟩ := nullable_of_filled hn
  exact ⟨hfill, hk, field.2, Schema.type?_eq_some_iff.mpr hfield, hn⟩

theorem fields_of_outputSchema {outputs : List TypedOutput} {schema : Schema}
    (h : inputs.outputSchema outputs = .ok schema) :
    schema.fields = outputs.map fun p => (p.1.name, p.2) := by
  unfold outputSchema at h
  split at h
  · cases h
  · exact Schema.ofFields_eq_ok_iff.mp h

theorem types_of_outputSchema {outputs : List TypedOutput} {schema : Schema}
    (h : inputs.outputSchema outputs = .ok schema) : schema.types = outputs.map Prod.snd := by
  rw [Schema.types, fields_of_outputSchema h, List.map_map]
  rfl

/-- **The types of output columns foresee the nulls of the join**: a column of a type that admits
none has a source without. -/
theorem planOutputs_nullFree {outputs : List JoinOutput} {schema : Schema}
    (h : inputs.planOutputs kind conditions = .ok (outputs, schema)) :
    List.Forall₂ (fun o t => t.nullable = false →
      o.source.NullFree kind inputs.left inputs.right) outputs schema.types := by
  unfold planOutputs at h
  split at h
  · rename_i honly
    cases h
    have hk : kind.nullsLeft = false := by cases kind <;> first | rfl | cases honly
    rw [Schema.names, Schema.types, List.map_map, List.forall₂_map_left_iff,
      List.forall₂_map_right_iff, List.forall₂_same]
    exact fun field hfield hn => ⟨hk, field.2, Schema.type?_eq_some_iff.mpr hfield, hn⟩
  · rename_i honly
    obtain ⟨lefts, hlefts, h⟩ := Result.bind_eq_ok_iff.mp h
    obtain ⟨built, hbuilt, h⟩ := Result.bind_eq_ok_iff.mp h
    cases h
    rw [types_of_outputSchema hbuilt, List.forall₂_map_left_iff, List.forall₂_map_right_iff,
      List.forall₂_same]
    intro out hout hn
    rcases List.mem_append.mp hout with hout | hout
    · obtain ⟨field, hfield, hleft⟩ := Result.exists_of_mem_mapM hlefts out hout
      exact leftOutput_nullFree hfield hleft hn
    · obtain ⟨field, hfield, rfl⟩ := List.mem_map.mp hout
      exact rightOutput_nullFree (List.mem_filter.mp hfield).1
        (by simpa using honly) hn

theorem planOutputs_of_plan {predicate : JoinPredicate} {join : Join} {schema : Schema}
    (h : inputs.plan predicate kind = .ok (join, schema)) :
    join.kind = kind ∧ inputs.planOutputs kind join.conditions = .ok (join.outputs, schema) := by
  obtain ⟨⟨conditions, residual⟩, -, h⟩ := Result.bind_eq_ok_iff.mp h
  obtain ⟨-, -, h⟩ := Result.bind_eq_ok_iff.mp h
  obtain ⟨⟨outputs, planned⟩, hout, h⟩ := Result.bind_eq_ok_iff.mp h
  cases h
  exact ⟨rfl, hout⟩

end JoinInputs

/-! ### Planned joins -/

/-- The rows of a join admit nulls by the types of its columns. -/
theorem RowJoin.rows_nullsAdmitted {j : RowJoin} {left right rows : List Row}
    {ls rs types : List DataType} (hsources : List.Forall₂ (fun s t => t.nullable = false →
      RowSource.NullFree j.kind ls rs s) j.outputs types)
    (hl : ∀ l ∈ left, l.NullsAdmitted ls) (hr : ∀ r ∈ right, r.NullsAdmitted rs)
    (h : j.rows left right = .ok rows) : ∀ row ∈ rows, row.NullsAdmitted types := by
  intro row hrow
  obtain ⟨lo, ro, hemit, rfl⟩ := exists_of_mem_rows h hrow
  unfold RowJoin.emit
  generalize j.outputs = sources at hsources ⊢
  induction hsources with
  | nil => simp
  | cons hs _ ih =>
    rw [List.map_cons, Row.nullsAdmitted_cons]
    exact ⟨fun hn => (hs hn).value_ne_null hl hr hemit, ih⟩

/-- Resolved sources stand beside the types of the columns. -/
theorem Join.rowSources_nullFree {kind : JoinKind} {left right : Schema}
    {outputs : List JoinOutput} {sources : List RowSource} {types : List DataType}
    (hs : List.Forall₂ (fun o s => Join.rowSource left right o = .ok s) outputs sources)
    (ht : List.Forall₂ (fun o t => t.nullable = false → o.source.NullFree kind left right) outputs
      types) :
    List.Forall₂ (fun s t => t.nullable = false →
      RowSource.NullFree kind left.types right.types s) sources types :=
  forall₂_of_beside (fun _ _ _ hos hot hn => Join.nullFree_of_rowSource hos (hot hn)) hs ht

theorem Batch.rows_of_ofRows {types : List DataType} {rows : List Row} {b : Batch}
    (h : Batch.ofRows types rows = .ok b) : b.rows = rows := by
  unfold Batch.ofRows at h
  split at h <;> cases h
  rfl

theorem OperatorPlan.lower_join {j : Join} {ref : TableRef} {schema : Schema} {left right : Plan}
    {n m : Nat} {p : OperatorPlan}
    (h : lower (.node (.join j) ref schema [left, right]) n = .ok (p, m)) :
    ∃ l r join, p = .node (.join join) schema [l, r] ∧ j.resolve left right = .ok join := by
  rw [lower] at h
  obtain ⟨⟨l, n₁⟩, -, h⟩ := Result.bind_eq_ok_iff.mp h
  obtain ⟨⟨r, n₂⟩, -, h⟩ := Result.bind_eq_ok_iff.mp h
  obtain ⟨⟨join, n₃⟩, hjoin, h⟩ := Result.bind_eq_ok_iff.mp h
  obtain ⟨k, hk, hkj⟩ := Result.map_eq_ok_iff.mp hjoin
  cases hkj
  cases h
  exact ⟨l, r, join, rfl, hk⟩

/-- **No planned join leaks a null**: when the predicate is planned and lowered, running the join
on rows with nulls only where their columns admit them gives such rows again, for every kind of
join, collapsed and coalesced keys included. -/
theorem run_plan_nullsAdmitted {left right : Plan} {suffixes : JoinSuffixes}
    {selfRef : Option TableRef} {predicate : JoinPredicate} {kind : JoinKind} {join : Join}
    {schema : Schema} {ref : TableRef} {n m : Nat} {p : OperatorPlan}
    (hplan : JoinInputs.plan ⟨left.ref, left.schema, right.ref, right.schema, suffixes, selfRef⟩
      predicate kind = .ok (join, schema))
    (hlower : OperatorPlan.lower (.node (.join join) ref schema [left, right]) n = .ok (p, m)) :
    ∃ l r j, p = .node (.join j) schema [l, r] ∧
      ∀ (provider : RowProvider) (leftBatch rightBatch out : Batch),
        (∀ row ∈ leftBatch.rows, row.NullsAdmitted left.schema.types) →
        (∀ row ∈ rightBatch.rows, row.NullsAdmitted right.schema.types) →
        (Operator.join j).run provider schema.types [leftBatch, rightBatch] = .ok out →
        ∀ row ∈ out.rows, row.NullsAdmitted schema.types := by
  obtain ⟨rfl, houtputs⟩ := JoinInputs.planOutputs_of_plan hplan
  obtain ⟨l, r, j, rfl, hj⟩ := OperatorPlan.lower_join hlower
  refine ⟨l, r, j, rfl, fun provider leftBatch rightBatch out hl hr hrun => ?_⟩
  obtain ⟨rows, hrows, hout⟩ := Result.bind_eq_ok_iff.mp hrun
  obtain ⟨keys, -, hj⟩ := Result.bind_eq_ok_iff.mp hj
  obtain ⟨residual, -, hj⟩ := Result.bind_eq_ok_iff.mp hj
  obtain ⟨sources, hsources, hj⟩ := Result.bind_eq_ok_iff.mp hj
  cases hj
  rw [Batch.rows_of_ofRows hout]
  exact RowJoin.rows_nullsAdmitted (Join.rowSources_nullFree (Result.forall₂_of_mapM hsources)
    (JoinInputs.planOutputs_nullFree houtputs)) hl hr hrows

/-- A full join without a match on a key that comes out once: only the key keeps a type without
null. -/
theorem run_plan_nullsAdmitted_full :
    let key : DataType := .base (.int .int64) false
    let text : DataType := .base .utf8 false
    let one : Scalar := .int .int64 ⟨1, by decide, by decide⟩
    let two : Scalar := .int .int64 ⟨2, by decide, by decide⟩
    let leftBatch : Batch := ⟨[key, text], [[one, .utf8 "a"]]⟩
    let rightBatch : Batch := ⟨[key, text], [[two, .utf8 "b"]]⟩
    let left : Plan := .node (.values leftBatch) ⟨0⟩ ⟨[("k", key), ("x", text)], by decide⟩ []
    let right : Plan := .node (.values rightBatch) ⟨1⟩ ⟨[("k", key), ("y", text)], by decide⟩ []
    let join : Join := ⟨.full, [⟨"k", "k"⟩], none,
      [⟨"k", .coalesce "k" "k"⟩, ⟨"x", .left "x"⟩, ⟨"y", .right "y"⟩]⟩
    let schema : Schema := ⟨[("k", key), ("x", .utf8), ("y", .utf8)], by decide⟩
    let j : RowJoin := ⟨.full, [0], [0], none, [.coalesce 0 0, .left 1, .right 1]⟩
    let rows : List Row := [[one, .utf8 "a", .null], [two, .null, .utf8 "b"]]
    JoinInputs.plan ⟨left.ref, left.schema, right.ref, right.schema, .standard, none⟩
        (.columns [("k", "k")]) .full = .ok (join, schema) ∧
      (∀ row ∈ leftBatch.rows, row.NullsAdmitted left.schema.types) ∧
      (∀ row ∈ rightBatch.rows, row.NullsAdmitted right.schema.types) ∧
      ∃ l r, OperatorPlan.lower (.node (.join join) ⟨2⟩ schema [left, right]) 0 =
          .ok (.node (.join j) schema [l, r], 0) ∧
        (Operator.join j).run ⟨fun _ => .ok .empty, fun _ => .ok .empty⟩ schema.types
          [leftBatch, rightBatch] = .ok ⟨schema.types, rows⟩ ∧
        ∀ row ∈ rows, row.NullsAdmitted schema.types := by
  intro key text one two leftBatch rightBatch left right join schema j rows
  have hplan : JoinInputs.plan ⟨left.ref, left.schema, right.ref, right.schema, .standard, none⟩
    (.columns [("k", "k")]) .full = .ok (join, schema) := rfl
  have hl : ∀ row ∈ leftBatch.rows, row.NullsAdmitted left.schema.types := by
    simp [leftBatch, left, Plan.schema, Schema.types, one]
  have hr : ∀ row ∈ rightBatch.rows, row.NullsAdmitted right.schema.types := by
    simp [rightBatch, right, Plan.schema, Schema.types, two]
  have hlower : OperatorPlan.lower (.node (.join join) ⟨2⟩ schema [left, right]) 0 =
      .ok (.node (.join j) schema [.node (.values leftBatch) left.schema [],
        .node (.values rightBatch) right.schema []], 0) := rfl
  have hrun : (Operator.join j).run ⟨fun _ => .ok .empty, fun _ => .ok .empty⟩ schema.types
      [leftBatch, rightBatch] = .ok ⟨schema.types, rows⟩ := rfl
  refine ⟨hplan, hl, hr, _, _, hlower, hrun, ?_⟩
  obtain ⟨l, r, k, hk, hall⟩ := run_plan_nullsAdmitted hplan hlower
  cases hk
  exact hall _ _ _ _ hl hr hrun

end TableQuery
