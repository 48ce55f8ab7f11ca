import TableQuery.Operator.Lower
import TableQuery.Proofs.Join.Predicate

/-! # Planned joins can be lowered

The planner of a join leaves conditions, a residual and output columns whose names are all there:
the keys have types on their sides, the residual is looked up on both
(`residual_of_splitPredicate`), and every output reads columns of the two relations
(`reads_of_planOutputs`). Hence the join can be resolved to positions, whatever the predicate was
(`exists_resolve_of_plan`). -/

namespace TableQuery

namespace Schema

theorem joinIndex_of_typeOf {s : Schema} {name : String} {t : DataType} (side : String)
    (h : s.typeOf name = .ok t) : ∃ i, s.joinIndex side name = .ok i := by
  obtain ⟨i, hi, -⟩ := index?_of_type? (typeOf_eq_ok_iff.mp h)
  exact ⟨i, by rw [joinIndex, hi]⟩

end Schema

namespace JoinInputs

variable {inputs : JoinInputs} {kind : JoinKind} {conditions : List JoinCondition}

/-- The columns that an output reads are there. -/
def Reads (left right : Schema) : JoinSource → Prop
  | .left n => ∃ t, left.typeOf n = .ok t
  | .right n => ∃ t, right.typeOf n = .ok t
  | .coalesce l r => (∃ t, left.typeOf l = .ok t) ∧ ∃ t, right.typeOf r = .ok t

theorem rowSource_of_reads {left right : Schema} {o : JoinOutput} (h : Reads left right o.source) :
    ∃ r, Join.rowSource left right o = .ok r := by
  obtain ⟨name, source⟩ := o
  cases source with
  | left n =>
    obtain ⟨t, ht⟩ := h
    obtain ⟨i, hi⟩ := Schema.joinIndex_of_typeOf "left" ht
    exact ⟨.left i, by simp [Join.rowSource, hi, Except.map]⟩
  | right n =>
    obtain ⟨t, ht⟩ := h
    obtain ⟨i, hi⟩ := Schema.joinIndex_of_typeOf "right" ht
    exact ⟨.right i, by simp [Join.rowSource, hi, Except.map]⟩
  | coalesce l r =>
    obtain ⟨⟨t, ht⟩, u, hu⟩ := h
    obtain ⟨i, hi⟩ := Schema.joinIndex_of_typeOf "left" ht
    obtain ⟨k, hk⟩ := Schema.joinIndex_of_typeOf "right" hu
    exact ⟨.coalesce i k, by simp [Join.rowSource, hi, hk]⟩

theorem typeOf_of_mem_fields {s : Schema} {field : String × DataType} (h : field ∈ s.fields) :
    s.typeOf field.1 = .ok field.2 :=
  Schema.typeOf_eq_ok_iff.mpr (Schema.type?_eq_some_iff.mpr h)

theorem reads_of_leftOutput {collapsed : List String} {field : String × DataType}
    {out : TypedOutput} (hfield : field ∈ inputs.left.fields)
    (h : inputs.leftOutput kind collapsed field = .ok out) :
    Reads inputs.left inputs.right out.1.source := by
  obtain ⟨name, t⟩ := field
  have hleft := typeOf_of_mem_fields hfield
  unfold leftOutput at h
  dsimp only at h
  split at h
  · obtain ⟨u, hright, h⟩ := Result.bind_eq_ok_iff.mp h
    cases h
    cases kind with
    | right => exact ⟨u, hright⟩
    | full => exact ⟨⟨_, hleft⟩, u, hright⟩
    | inner | left | semi | anti => exact ⟨_, hleft⟩
  · cases h
    exact ⟨_, hleft⟩

/-- Every output of a planned join reads columns that are there. -/
theorem reads_of_planOutputs {outputs : List JoinOutput} {schema : Schema}
    (h : inputs.planOutputs kind conditions = .ok (outputs, schema)) :
    ∀ o ∈ outputs, Reads inputs.left inputs.right o.source := by
  intro o ho
  unfold planOutputs at h
  split at h
  · cases h
    obtain ⟨n, hn, rfl⟩ := List.mem_map.mp ho
    obtain ⟨field, hfield, rfl⟩ := List.mem_map.mp hn
    exact ⟨_, typeOf_of_mem_fields hfield⟩
  · obtain ⟨lefts, hlefts, h⟩ := Result.bind_eq_ok_iff.mp h
    obtain ⟨_, -, h⟩ := Result.bind_eq_ok_iff.mp h
    cases h
    obtain ⟨out, hout, rfl⟩ := List.mem_map.mp ho
    rcases List.mem_append.mp hout with hout | hout
    · obtain ⟨field, hfield, hleft⟩ := Result.exists_of_mem_mapM hlefts out hout
      exact reads_of_leftOutput hfield hleft
    · obtain ⟨field, hfield, rfl⟩ := List.mem_map.mp hout
      exact ⟨_, typeOf_of_mem_fields (List.mem_filter.mp hfield).1⟩

/-- The columns of a condition whose types were compared are there. -/
theorem keyIndices_of_checkKeyTypes {c : JoinCondition} (h : inputs.checkKeyTypes c = .ok ()) :
    ∃ p, Join.keyIndices inputs.left inputs.right c = .ok p := by
  obtain ⟨l, hl, h⟩ := Result.bind_eq_ok_iff.mp h
  obtain ⟨r, hr, -⟩ := Result.bind_eq_ok_iff.mp h
  obtain ⟨i, hi⟩ := Schema.joinIndex_of_typeOf "left" hl
  obtain ⟨k, hk⟩ := Schema.joinIndex_of_typeOf "right" hr
  exact ⟨(i, k), by rw [Join.keyIndices, hi, Result.ok_bind, hk]; rfl⟩

/-- What is left of a predicate can be resolved over both sides. -/
theorem residual_of_splitPredicate (hrefs : inputs.leftRef ≠ inputs.rightRef)
    {predicate : JoinPredicate} {residual : Option Expr}
    (h : inputs.splitPredicate predicate = .ok (conditions, residual)) :
    ∃ ys, residual.mapM (Expr.resolve inputs.scopes) = .ok ys := by
  cases predicate with
  | columns pairs =>
    obtain ⟨_, -, h⟩ := Result.bind_eq_ok_iff.mp h
    cases h
    exact ⟨none, rfl⟩
  | cross =>
    cases h
    exact ⟨none, rfl⟩
  | expression e =>
    obtain ⟨⟨_, rest⟩, -, h⟩ := Result.bind_eq_ok_iff.mp h
    obtain ⟨_, hresidual, h⟩ := Result.bind_eq_ok_iff.mp h
    cases h
    obtain ⟨-, ys, hys, -⟩ := residual_spec hrefs hresidual
    exact ⟨ys, hys⟩

/-- **A planned join can be resolved.** -/
theorem exists_resolve_of_plan {l r : Plan} {suffixes : JoinSuffixes} {selfRef : Option TableRef}
    {predicate : JoinPredicate} {j : Join} {schema : Schema} (hne : l.ref ≠ r.ref)
    (h : (⟨l.ref, l.schema, r.ref, r.schema, suffixes, selfRef⟩ : JoinInputs).plan predicate kind =
      .ok (j, schema)) : ∃ join, j.resolve l r = .ok join := by
  obtain ⟨⟨conditions, residual⟩, hsplit, h⟩ := Result.bind_eq_ok_iff.mp h
  obtain ⟨_, hkeys, h⟩ := Result.bind_eq_ok_iff.mp h
  obtain ⟨⟨outputs, _⟩, houtputs, h⟩ := Result.bind_eq_ok_iff.mp h
  cases h
  obtain ⟨keys, hkeys⟩ := Result.exists_mapM_eq_ok fun c hc =>
    keyIndices_of_checkKeyTypes (Result.forM_eq_ok_iff.mp hkeys c hc)
  obtain ⟨ys, hys⟩ := residual_of_splitPredicate hne hsplit
  obtain ⟨sources, hsources⟩ := Result.exists_mapM_eq_ok fun o ho =>
    rowSource_of_reads (reads_of_planOutputs houtputs o ho)
  refine ⟨⟨kind, keys.map Prod.fst, keys.map Prod.snd, ys, sources⟩, ?_⟩
  change (do
    let keys ← conditions.mapM (Join.keyIndices l.schema r.schema)
    let residual ← residual.mapM (Expr.resolve (Scope.join l.ref l.schema r.ref r.schema))
    let outputs ← outputs.mapM (Join.rowSource l.schema r.schema)
    return (⟨kind, keys.map Prod.fst, keys.map Prod.snd, residual, outputs⟩ : RowJoin)) = _
  have hys : residual.mapM (Expr.resolve (Scope.join l.ref l.schema r.ref r.schema)) = .ok ys := hys
  rw [hkeys, Result.ok_bind, hys, Result.ok_bind, hsources]
  rfl

end JoinInputs

end TableQuery
