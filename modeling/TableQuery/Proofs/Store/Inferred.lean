import TableQuery.Proofs.Batch.Layout
import TableQuery.Proofs.Batch.Nulls
import TableQuery.Proofs.DataType
import TableQuery.Proofs.Store.Invariant

/-! # Client data under its own schema

A schema that is inferred from client data has its columns in their order
(`names_of_inferSchema`), and a column is taken for free of nulls only if it has none
(`null_notMem_of_inferType`). So the data is turned into rows that the store takes as they are: its
checks of the number of columns and of nulls pass (`conform_of_inferSchema`). -/

namespace TableQuery

/-! ### Nulls of native columns -/

namespace NativeArray

theorem null_notMem_map_orNull {α : Type} {f : α → Scalar} (hf : ∀ a, f a ≠ .null) :
    ∀ {values : List (Option α)}, values.countP Option.isNone = 0 →
      .null ∉ values.map (orNull f) := by
  intro values hcount hnull
  obtain ⟨value, hvalue, heq⟩ := List.mem_map.mp hnull
  cases value with
  | none => exact List.countP_eq_zero.mp hcount none hvalue rfl
  | some a => exact hf a heq

/-- **An array that counts no nulls has none.** -/
theorem null_notMem_of_nullCount {a : NativeArray} {values : List Scalar}
    (h : a.scalars = .ok values) (hcount : a.nullCount = 0) : .null ∉ values := by
  cases a with
  | categorical categories codes =>
    intro hnull
    obtain ⟨code, hcode, hvalue⟩ := Result.exists_of_mem_mapM h _ hnull
    cases code with
    | none => exact List.countP_eq_zero.mp hcount none hcode rfl
    | some n =>
      simp only [category] at hvalue
      split at hvalue <;> cases hvalue
  | object vs =>
    cases h
    exact fun hnull => List.countP_eq_zero.mp hcount .null hnull rfl
  | _ =>
    cases h
    exact null_notMem_map_orNull (fun _ => Scalar.noConfusion) hcount

end NativeArray

theorem NativeColumn.null_notMem_of_inferType {c : NativeColumn} {t : DataType}
    {values : List Scalar} (ht : c.inferType = .ok t) (hvalues : c.array.scalars = .ok values)
    (hn : t.nullable = false) : .null ∉ values := by
  obtain ⟨u, -, rfl⟩ := Result.map_eq_ok_iff.mp ht
  have hflag := DataType.eq_false_of_nullable_withNullable hn
  have hcount : c.array.nullCount = 0 := by simpa using (Bool.or_eq_false_iff.mp hflag).2
  exact NativeArray.null_notMem_of_nullCount hvalues hcount

/-! ### Columns of batches -/

namespace Batch

/-- A batch of columns has these columns. -/
theorem columns_of_ofColumns {columns : List Column} {b : Batch} (h : ofColumns columns = .ok b) :
    b.columns = columns := by
  obtain ⟨hlength, rfl⟩ := ofColumns_eq_ok_iff.mp h
  refine List.ext_getElem? fun j => ?_
  cases hj : columns[j]? with
  | none => simp [Batch.columns, List.getElem?_zipIdx, hj]
  | some c =>
    refine columns_getElem?_eq_some_iff.mpr ⟨c.type, by simp [hj], ?_⟩
    have hvalues : ∀ i, (rowAt columns i).getD j .null = c.values.getD i .null := by
      simp [rowAt, hj]
    rw [← hlength c (List.mem_of_getElem? hj), List.map_map]
    simp only [Function.comp_def, hvalues]
    refine congrArg (Column.mk c.type) (List.ext_getElem (by simp) fun i hi _ => ?_)
    have hlt : i < c.values.length := by simpa using hi
    simp [hlt]

end Batch

/-- Data that is laid out as a table is checked for nulls only. -/
theorem Store.conform_eq_ok_iff {name : String} {schema : Schema} {b rows : Batch}
    (h : b.LaidOut schema) : conform name schema b = .ok rows ↔
      (∀ p ∈ schema.fields.zip b.columns, p.1.2.nullable = false → .null ∉ p.2.values) ∧
        rows = if schema.fields.isEmpty then .empty else b := by
  have hsame : b.withTypes schema.types = b := by rw [Batch.withTypes, ← h.types]
  rw [conform, if_neg (not_not.mpr h.numColumns_eq), hsame]
  split
  · rename_i f c hfound
    have hmem := List.mem_of_find?_eq_some hfound
    have hnull := List.find?_some hfound
    simp only [Bool.and_eq_true, Bool.not_eq_true', List.any_eq_true, Scalar.isNull_iff] at hnull
    obtain ⟨hn, v, hv, rfl⟩ := hnull
    simp only [reduceCtorEq, false_iff]
    exact fun h => h.1 _ hmem hn hv
  · rename_i hnone
    rw [Except.ok.injEq, eq_comm]
    refine ⟨fun hrows => ⟨fun p hp hn hnull => ?_, hrows⟩, fun h => h.2⟩
    refine List.find?_eq_none.mp hnone p hp ?_
    simp only [hn, Bool.not_false, Bool.true_and, List.any_eq_true]
    exact ⟨_, hnull, Scalar.isNull_iff.mpr rfl⟩

/-! ### Inferred schemas -/

namespace Source

variable {data : Source} {schema : Schema} {b : Batch}

theorem fields_of_inferSchema (h : data.inferSchema = .ok schema) :
    List.Forall₂ (fun c (f : String × DataType) => f.1 = c.name ∧ c.inferType = .ok f.2)
      data.columns schema.fields := by
  obtain ⟨fields, hfields, h⟩ := Result.bind_eq_ok_iff.mp h
  rw [Schema.ofFields_eq_ok_iff.mp h]
  refine (Result.forall₂_of_mapM hfields).imp fun c f hf => ?_
  obtain ⟨t, ht, rfl⟩ := Result.map_eq_ok_iff.mp hf
  exact ⟨rfl, ht⟩

/-- **An inferred schema has the columns of the data**, in their order. -/
theorem names_of_inferSchema (h : data.inferSchema = .ok schema) : schema.names = data.names :=
  (map_eq_map_of_forall₂ ((fields_of_inferSchema h).imp fun _ _ h => h.1.symm)).symm

/-- A column has no nulls under an inferred type that admits none. -/
theorem null_notMem_of_columnAs (h : data.inferSchema = .ok schema) {field : String × DataType}
    (hfield : field ∈ schema.fields) {c : Column} (hc : data.columnAs field = .ok c)
    (hn : field.2.nullable = false) : .null ∉ c.values := by
  unfold columnAs at hc
  split at hc
  · rename_i column hcolumn
    obtain ⟨values, hvalues, rfl⟩ := Result.map_eq_ok_iff.mp hc
    have hname : column.name = field.1 := by simpa using List.find?_some hcolumn
    obtain ⟨i, hi⟩ := List.getElem?_of_mem (List.mem_of_find?_eq_some hcolumn)
    obtain ⟨inferred, hinferred, hfield', htype⟩ :=
      exists_of_forall₂_getElem? (fields_of_inferSchema h) hi
    -- The schema has one column of the name, so the type of the field is the one of this column.
    have hsame : field.2 = inferred.2 := by
      have hf : schema.type? field.1 = some field.2 := Schema.type?_eq_some_iff.mpr hfield
      have hg : schema.type? inferred.1 = some inferred.2 :=
        Schema.type?_eq_some_iff.mpr (List.mem_of_getElem? hinferred)
      rw [hfield', hname, hf] at hg
      exact Option.some.inj hg
    exact NativeColumn.null_notMem_of_inferType htype hvalues (hsame ▸ hn)
  · cases hc

/-- The columns of the rows that client data is turned into. -/
theorem columns_of_toBatch (h : data.toBatch schema = .ok b) :
    schema.fields.mapM data.columnAs = .ok b.columns := by
  obtain ⟨columns, hcolumns, h⟩ := Result.bind_eq_ok_iff.mp h
  split at h
  · rename_i hempty
    cases h
    rw [hcolumns, List.isEmpty_iff.mp hempty]
    rfl
  · rw [hcolumns, Batch.columns_of_ofColumns h]

/-- Client data without columns has no rows. -/
theorem eq_empty_of_toBatch (hschema : data.inferSchema = .ok schema)
    (hb : data.toBatch schema = .ok b) (hempty : schema.fields = []) : b = .empty := by
  have hcolumns : data.columns = [] :=
    List.eq_nil_of_length_eq_zero
      ((fields_of_inferSchema hschema).length_eq.trans (by rw [hempty]; rfl))
  rw [toBatch, hempty] at hb
  cases hb
  simp [Batch.ofCount, numRows, hcolumns, Batch.empty]

/-- **The store takes client data as it is** under the schema that was inferred from it. -/
theorem conform_of_inferSchema (name : String) (hschema : data.inferSchema = .ok schema)
    (hb : data.toBatch schema = .ok b) : Store.conform name schema b = .ok b := by
  refine (Store.conform_eq_ok_iff (laidOut_of_toBatch hb)).mpr ⟨fun p hp hn => ?_, ?_⟩
  · have hcolumn := List.forall₂_zip (Result.forall₂_of_mapM (columns_of_toBatch hb)) hp
    exact null_notMem_of_columnAs hschema (List.of_mem_zip hp).1 hcolumn hn
  · split
    · rename_i hempty
      exact eq_empty_of_toBatch hschema hb (List.isEmpty_iff.mp hempty)
    · rfl

end Source

end TableQuery
