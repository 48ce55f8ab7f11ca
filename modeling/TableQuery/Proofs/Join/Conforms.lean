import TableQuery.Proofs.Expr.Soundness
import TableQuery.Proofs.Join.NullFill

/-! # Types of the rows of joins

An output column of a join has the type of the column that it reads, but for the nulls that the join
fills in, so that the values that it reads conform (`planOutputs_fits`). Where a full join makes one
column of two keys the type is a common supertype of theirs, and the values are taken as they are:
they conform if all values of both types are values of it (`DataType.FitsIn`). With this condition
the rows of a join conform to the types of its columns (`RowJoin.conforms_of_rows`). -/

namespace TableQuery

/-- **A type fits in another**: its values conform to it. -/
def DataType.FitsIn (t u : DataType) : Prop := ∀ v : Scalar, v.Conforms t → v.Conforms u

theorem DataType.FitsIn.refl (t : DataType) : t.FitsIn t := fun _ h => h

theorem DataType.fitsIn_withNullable (t : DataType) (n : Bool) : t.FitsIn (t.withNullable n) :=
  fun _ h => h.withNullable n

/-- **A source fits in a type**: so do the types of the columns that it reads. -/
def JoinSource.FitsIn (left right : Schema) (t : DataType) : JoinSource → Prop
  | .left n => ∃ u, left.type? n = some u ∧ u.FitsIn t
  | .right n => ∃ u, right.type? n = some u ∧ u.FitsIn t
  | .coalesce l r =>
    (∃ u, left.type? l = some u ∧ u.FitsIn t) ∧ ∃ u, right.type? r = some u ∧ u.FitsIn t

/-- The same of the positions of columns. -/
def RowSource.FitsIn (left right : List DataType) (t : DataType) : RowSource → Prop
  | .left i => ∃ u, left[i]? = some u ∧ u.FitsIn t
  | .right i => ∃ u, right[i]? = some u ∧ u.FitsIn t
  | .coalesce i k => (∃ u, left[i]? = some u ∧ u.FitsIn t) ∧ ∃ u, right[k]? = some u ∧ u.FitsIn t

/-! ### Values of sources -/

namespace RowSource

variable {ls rs : List DataType} {left right : List Row} {lo ro : Option Row} {t : DataType}

theorem read_conforms {types : List DataType} {row : Option Row}
    (hrow : ∀ r ∈ row, List.Forall₂ Scalar.Conforms r types) {i : Nat}
    (hi : ∃ u, types[i]? = some u ∧ u.FitsIn t) : (read row i).Conforms t := by
  obtain ⟨u, hu, hfits⟩ := hi
  cases row with
  | none => exact .null t
  | some r => exact hfits _ (RowExpr.conforms_getD (hrow r rfl) hu)

theorem FitsIn.value_conforms {s : RowSource} (hs : s.FitsIn ls rs t)
    (hl : ∀ l ∈ lo, List.Forall₂ Scalar.Conforms l ls)
    (hr : ∀ r ∈ ro, List.Forall₂ Scalar.Conforms r rs) : (s.value lo ro).Conforms t := by
  cases s with
  | left i => exact read_conforms hl hs
  | right i => exact read_conforms hr hs
  | coalesce i k =>
    rw [value]
    split
    · exact read_conforms hr hs.2
    · exact read_conforms hl hs.1

end RowSource

theorem Join.fitsIn_of_rowSource {left right : Schema} {o : JoinOutput} {s : RowSource}
    {t : DataType} (h : Join.rowSource left right o = .ok s) (ho : o.source.FitsIn left right t) :
    s.FitsIn left.types right.types t := by
  obtain ⟨name, source⟩ := o
  cases source with
  | left n =>
    obtain ⟨i, hi, rfl⟩ := Result.map_eq_ok_iff.mp h
    obtain ⟨u, hu, hfits⟩ := ho
    exact ⟨u, Schema.types_of_joinIndex hi hu, hfits⟩
  | right n =>
    obtain ⟨i, hi, rfl⟩ := Result.map_eq_ok_iff.mp h
    obtain ⟨u, hu, hfits⟩ := ho
    exact ⟨u, Schema.types_of_joinIndex hi hu, hfits⟩
  | coalesce l r =>
    obtain ⟨i, hi, h⟩ := Result.bind_eq_ok_iff.mp h
    obtain ⟨k, hk, h⟩ := Result.bind_eq_ok_iff.mp h
    cases h
    obtain ⟨⟨u, hu, hleft⟩, w, hw, hright⟩ := ho
    exact ⟨⟨u, Schema.types_of_joinIndex hi hu, hleft⟩, w, Schema.types_of_joinIndex hk hw, hright⟩

/-- **The rows of a join conform** to types that its sources fit in. -/
theorem RowJoin.conforms_of_rows {j : RowJoin} {left right rows : List Row}
    {ls rs types : List DataType}
    (hsources : List.Forall₂ (fun s t => s.FitsIn ls rs t) j.outputs types)
    (hl : ∀ l ∈ left, List.Forall₂ Scalar.Conforms l ls)
    (hr : ∀ r ∈ right, List.Forall₂ Scalar.Conforms r rs) (h : j.rows left right = .ok rows) :
    ∀ row ∈ rows, List.Forall₂ Scalar.Conforms row types := by
  intro row hrow
  obtain ⟨lo, ro, hemit, rfl⟩ := exists_of_mem_rows h hrow
  have hlo : ∀ l ∈ lo, List.Forall₂ Scalar.Conforms l ls := by
    rintro l rfl
    cases hemit with
    | pair _ hmem _ | leftAlone _ hmem => exact hl l hmem
  have hro : ∀ r ∈ ro, List.Forall₂ Scalar.Conforms r rs := by
    rintro r rfl
    cases hemit with
    | pair _ _ hmem | rightAlone _ hmem => exact hr r hmem
  exact List.forall₂_map_left_iff.mpr (hsources.imp fun s t hs => hs.value_conforms hlo hro)

/-! ### The types of output columns -/

namespace JoinInputs

variable {inputs : JoinInputs} {kind : JoinKind} {conditions : List JoinCondition}

theorem fitsIn_filled (fills : Bool) (t : DataType) :
    t.FitsIn (if fills then t.withNullable true else t) := by
  cases fills with
  | false => exact .refl t
  | true => exact t.fitsIn_withNullable true

theorem collapsedKey_fits {name : String} {l r : DataType} (hl : inputs.left.type? name = some l)
    (hr : inputs.right.type? name = some r)
    (h : ∀ a b, (collapsedKey kind name l r).1 ≠ .coalesce a b) :
    (collapsedKey kind name l r).1.FitsIn inputs.left inputs.right
      (collapsedKey kind name l r).2 := by
  cases kind with
  | right => exact ⟨r, hr, .refl r⟩
  | full => exact absurd rfl (h name name)
  | inner | left | semi | anti => exact ⟨l, hl, .refl l⟩

theorem leftOutput_fits {collapsed : List String} {field : String × DataType} {out : TypedOutput}
    (hfield : field ∈ inputs.left.fields) (h : inputs.leftOutput kind collapsed field = .ok out)
    (hsource : ∀ a b, out.1.source ≠ .coalesce a b) :
    out.1.source.FitsIn inputs.left inputs.right out.2 := by
  obtain ⟨name, t⟩ := field
  have ht : inputs.left.type? name = some t := Schema.type?_eq_some_iff.mpr hfield
  unfold leftOutput at h
  dsimp only at h
  split at h
  · obtain ⟨u, hu, h⟩ := Result.bind_eq_ok_iff.mp h
    cases h
    exact collapsedKey_fits ht (Schema.typeOf_eq_ok_iff.mp hu) hsource
  · cases h
    exact ⟨t, ht, fitsIn_filled _ t⟩

theorem rightOutput_fits {field : String × DataType} (hfield : field ∈ inputs.right.fields) :
    (inputs.rightOutput kind field).1.source.FitsIn inputs.left inputs.right
      (inputs.rightOutput kind field).2 :=
  ⟨field.2, Schema.type?_eq_some_iff.mpr hfield, fitsIn_filled _ field.2⟩

/-- **The columns of a join fit in their types**, if those do that are made of two keys. -/
theorem planOutputs_fits {outputs : List JoinOutput} {schema : Schema}
    (h : inputs.planOutputs kind conditions = .ok (outputs, schema))
    (hkeys : ∀ name a b t, ⟨name, .coalesce a b⟩ ∈ outputs → schema.type? name = some t →
      (JoinSource.coalesce a b).FitsIn inputs.left inputs.right t) :
    List.Forall₂ (fun o t => o.source.FitsIn inputs.left inputs.right t) outputs schema.types := by
  unfold planOutputs at h
  split at h
  · cases h
    rw [Schema.names, Schema.types, List.map_map, List.forall₂_map_left_iff,
      List.forall₂_map_right_iff, List.forall₂_same]
    exact fun field hfield => ⟨field.2, Schema.type?_eq_some_iff.mpr hfield, .refl field.2⟩
  · obtain ⟨lefts, hlefts, h⟩ := Result.bind_eq_ok_iff.mp h
    obtain ⟨built, hbuilt, h⟩ := Result.bind_eq_ok_iff.mp h
    cases h
    rw [types_of_outputSchema hbuilt, List.forall₂_map_left_iff, List.forall₂_map_right_iff,
      List.forall₂_same]
    intro out hout
    by_cases hsource : ∃ a b, out.1.source = .coalesce a b
    · obtain ⟨a, b, hsource⟩ := hsource
      rw [hsource]
      refine hkeys out.1.name a b out.2 (hsource ▸ List.mem_map_of_mem hout) ?_
      rw [Schema.type?_eq_some_iff, fields_of_outputSchema hbuilt]
      exact List.mem_map_of_mem (f := fun p : TypedOutput => (p.1.name, p.2)) hout
    · have hsource : ∀ a b, out.1.source ≠ .coalesce a b := fun a b h => hsource ⟨a, b, h⟩
      rcases List.mem_append.mp hout with hout | hout
      · obtain ⟨field, hfield, hleft⟩ := Result.exists_of_mem_mapM hlefts out hout
        exact leftOutput_fits hfield hleft hsource
      · obtain ⟨field, hfield, rfl⟩ := List.mem_map.mp hout
        exact rightOutput_fits (List.mem_filter.mp hfield).1

end JoinInputs

end TableQuery
