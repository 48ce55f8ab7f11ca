import TableQuery.Proofs.Aggregation.Groups
import TableQuery.Proofs.Expr.Soundness

/-! # Types of aggregates

An aggregate has the type that its function gives for the type of its input (`RowAggregate.Typed`).
What its state has seen conforms to that type (`AggregateState.Conforms`): sums are brought to it
value by value, the least and the greatest value keep theirs. By induction on the rows the result of
every aggregate conforms to the aggregate's type (`Typed.stateOver_conforms`), and so do the rows of
an aggregation (`RowAggregation.conforms_of_rows`). -/

namespace TableQuery

namespace Scalar

/-- A cast gives values of the type that it casts to. -/
theorem cast_conforms {v w : Scalar} {t : DataType} (h : v.cast t = .ok w) : w.Conforms t := by
  unfold cast at h
  split at h
  · cases h
    exact .null t
  · split at h
    · obtain ⟨x, -, rfl⟩ := Result.map_eq_ok_iff.mp h
      exact .float _ _
    · obtain ⟨x, -, h⟩ := Result.bind_eq_ok_iff.mp h
      exact ofIntAs_conforms h
    · obtain ⟨x, -, h⟩ := Result.bind_eq_ok_iff.mp h
      split at h
      · cases h
        exact .decimal _ _ rfl
      · cases h
    · split at h
      · obtain ⟨n, -, rfl⟩ := Result.map_eq_ok_iff.mp h
        exact .interval _ rfl
      · cases h
    · cases h

theorem ofCount_conforms (n : Nat) (nullable : Bool) :
    (ofCount n).Conforms (.base (.int .int64) nullable) := by
  unfold ofCount
  split
  · exact .int _ _
  · exact .null _

end Scalar

/-! ### States -/

/-- **What a state has seen conforms to the types** of the input and of the aggregate. -/
def AggregateState.Conforms (input type : DataType) : AggregateState → Prop
  | count _ | distinct _ => ∃ n, type = .base (.int .int64) n
  | sum total => type.isTemporal = false ∧ total.Conforms type
  | mean _ n => (n = 0 ∧ input.isNull = true) ∨ ∃ m, type = .base (.float .float64) m
  | min v | max v => type = input.withNullable true ∧ v.Conforms type

namespace AggregateState

variable {f : AggregateFunction} {u t : DataType} {state state' : AggregateState} {v : Scalar}

theorem initial_conforms (h : f.resultType u = .ok t) : (initial f).Conforms u t := by
  cases f with
  | countStar | count | countDistinct =>
    cases h
    exact ⟨_, rfl⟩
  | sum =>
    refine ⟨?_, .null t⟩
    simp only [AggregateFunction.resultType] at h
    split at h <;> cases h <;> rfl
  | mean =>
    simp only [AggregateFunction.resultType] at h
    split at h
    · rename_i hnull
      exact .inl ⟨rfl, hnull⟩
    · split at h
      · cases h
        exact .inr ⟨_, rfl⟩
      · cases h
  | min | max =>
    refine ⟨?_, .null t⟩
    simp only [AggregateFunction.resultType] at h
    split at h <;> cases h
    rfl

theorem add_conforms (hs : state.Conforms u t) (hv : v.Conforms u) (hnull : v ≠ .null)
    (h : state.add v t = .ok state') : state'.Conforms u t := by
  cases state with
  | count n | distinct keys =>
    cases h
    exact hs
  | sum total =>
    obtain ⟨total', htotal, rfl⟩ := Result.map_eq_ok_iff.mp h
    refine ⟨hs.1, ?_⟩
    split at htotal
    · exact Scalar.cast_conforms htotal
    · exact Scalar.arith_conforms_of_isTemporal hs.1 htotal
  | mean total n =>
    obtain ⟨x, -, rfl⟩ := Result.map_eq_ok_iff.mp h
    exact hs.imp_left fun ⟨_, hu⟩ => absurd (hv.eq_null hu) hnull
  | min least | max greatest =>
    cases h
    refine ⟨hs.1, ?_⟩
    split
    · exact hs.1 ▸ hv.withNullable true
    · exact hs.2

theorem update_conforms (hs : state.Conforms u t) (hv : v.Conforms u)
    (h : state.update f v t = .ok state') : state'.Conforms u t := by
  unfold update at h
  split at h
  · cases h
    exact hs
  · cases h
    exact hs
  · split at h
    · cases h
      exact hs
    · rename_i hnull
      exact add_conforms hs hv (fun hv => hnull (hv ▸ rfl)) h

/-- The aggregate of what has been seen conforms to the type of the aggregate. -/
theorem Conforms.result (h : state.Conforms u t) : state.result.Conforms t := by
  cases state with
  | count n | distinct keys =>
    obtain ⟨m, rfl⟩ := h
    exact Scalar.ofCount_conforms _ m
  | sum v | min v | max v => exact h.2
  | mean total n =>
    rw [AggregateState.result]
    split
    · exact .null t
    · rename_i hn
      rcases h with ⟨h0, -⟩ | ⟨m, rfl⟩
      · exact absurd h0 hn
      · exact .float _ _

end AggregateState

/-! ### Aggregates over rows -/

namespace RowAggregate

/-- The type of an aggregate's input; a missing one counts as null. -/
def inputType (a : RowAggregate) : DataType := a.input.elim .null RowExpr.type

/-- **An aggregate has its function's type**, over rows with columns of the given types. -/
structure Typed (types : List DataType) (a : RowAggregate) : Prop where
  input : ∀ x ∈ a.input, x.Typed types
  type : a.function.resultType a.inputType = .ok a.type

variable {a : RowAggregate} {types : List DataType} {rows : List Row} {s t : AggregateState}

theorem Typed.update_conforms (h : a.Typed types) {row : Row}
    (hrow : List.Forall₂ Scalar.Conforms row types) (hs : s.Conforms a.inputType a.type)
    (hupdate : a.update s row = .ok t) : t.Conforms a.inputType a.type := by
  unfold update at hupdate
  unfold inputType at hs ⊢
  split at hupdate
  · rename_i x hx
    obtain ⟨v, hv, hupdate⟩ := Result.bind_eq_ok_iff.mp hupdate
    rw [hx] at hs ⊢
    exact AggregateState.update_conforms hs ((h.input x hx).eval_conforms hrow hv) hupdate
  · exact AggregateState.update_conforms hs (.null _) hupdate

theorem Typed.fold_conforms (h : a.Typed types)
    (hrows : ∀ r ∈ rows, List.Forall₂ Scalar.Conforms r types)
    (hs : s.Conforms a.inputType a.type) (hfold : a.fold s rows = .ok t) :
    t.Conforms a.inputType a.type := by
  induction rows generalizing s with
  | nil =>
    cases hfold
    exact hs
  | cons r rows ih =>
    rw [← List.singleton_append, fold_append, fold_singleton] at hfold
    obtain ⟨s', hs', hfold⟩ := Result.bind_eq_ok_iff.mp hfold
    obtain ⟨hr, hrows⟩ := List.forall_mem_cons.mp hrows
    exact ih hrows (h.update_conforms hr hs hs') hfold

theorem Typed.initial_conforms (h : a.Typed types) :
    a.initial.Conforms a.inputType a.type := AggregateState.initial_conforms h.type

/-- An aggregate that has a type is resolved to one that is typed. -/
theorem typed_of_resolveCall {schema : Schema} {f : AggregateFunction} {input : Option Expr}
    {t : DataType} (ht : (Expr.aggregate f input).typeIn schema = .ok t)
    (h : Expr.resolveCall (Scope.single schema) f input = .ok a) :
    a.type = t ∧ a.Typed schema.types := by
  refine ⟨(Expr.resolveCall_decides ht).good_of_ok h, ?_⟩
  simp only [Expr.typeIn, Expr.aggregateType] at ht
  split at ht
  · cases ht
  · obtain ⟨u, hu, -⟩ := Result.bind_eq_ok_iff.mp ht
    obtain ⟨x, hx, h⟩ := Result.bind_eq_ok_iff.mp h
    obtain ⟨v, hv, h⟩ := Result.bind_eq_ok_iff.mp h
    cases h
    refine ⟨fun y hy => ?_, hv⟩
    cases input with
    | none =>
      cases hx
      cases hy
    | some e =>
      rw [Option.mapM_some] at hx
      obtain ⟨z, hz, hx⟩ := Result.map_eq_ok_iff.mp hx
      subst hx
      cases hy
      exact ((Expr.resolve_decides hu).good_of_ok hz).2.1

end RowAggregate

/-! ### Aggregations -/

namespace RowAggregation

variable {a : RowAggregation} {types : List DataType} {input rows : List Row}

/-- The values of a group conform to the types of the grouping expressions. -/
theorem valuesOf_conforms (hkeys : ∀ x ∈ a.groupBy, x.Typed types)
    (hinput : ∀ r ∈ input, List.Forall₂ Scalar.Conforms r types) (h : a.Defined input)
    {k : List Key} (hk : k ∈ a.groupKeys input) :
    List.Forall₂ Scalar.Conforms (a.valuesOf input k) (a.groupBy.map RowExpr.type) := by
  have hlength := length_valuesOf hk
  unfold valuesOf at hlength ⊢
  cases hm : a.members input k with
  | nil =>
    rw [hm] at hlength
    rw [List.eq_nil_of_length_eq_zero hlength.symm]
    exact .nil
  | cons r rs =>
    have hr : r ∈ input := (List.mem_filter.mp (hm ▸ List.mem_cons_self : r ∈ a.members input k)).1
    rw [List.head?_cons, Option.elim_some, groupValues, List.forall₂_map_left_iff,
      List.forall₂_map_right_iff, List.forall₂_same]
    intro x hx
    obtain ⟨v, hv⟩ := h.groupBy r hr x hx
    rw [RowExpr.valueOn_of_eval hv]
    exact (hkeys x hx).eval_conforms (hinput r hr) hv

/-- **The rows of an aggregation conform** to the types of its keys and aggregates. -/
theorem conforms_of_rows (hkeys : ∀ x ∈ a.groupBy, x.Typed types)
    (haggregates : ∀ f ∈ a.aggregates, f.Typed types)
    (hinput : ∀ r ∈ input, List.Forall₂ Scalar.Conforms r types) (h : a.rows input = .ok rows) :
    ∀ row ∈ rows, List.Forall₂ Scalar.Conforms row
      (a.groupBy.map RowExpr.type ++ a.aggregates.map RowAggregate.type) := by
  obtain ⟨hdefined, rfl⟩ := rows_eq_ok_iff.mp h
  intro row hrow
  obtain ⟨k, hk, rfl⟩ := List.mem_map.mp hrow
  refine List.rel_append (valuesOf_conforms hkeys hinput hdefined hk) ?_
  rw [List.forall₂_map_left_iff, List.forall₂_map_right_iff, List.forall₂_same]
  intro f hf
  have hfold := hdefined.fold_eq hf k
  have htyped := haggregates f hf
  have hmembers : ∀ r ∈ a.members input k, List.Forall₂ Scalar.Conforms r types :=
    fun r hr => hinput r (List.mem_filter.mp hr).1
  exact (htyped.fold_conforms hmembers htyped.initial_conforms hfold).result

end RowAggregation

end TableQuery
