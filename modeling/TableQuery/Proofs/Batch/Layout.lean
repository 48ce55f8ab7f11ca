import TableQuery.Proofs.Schema
import TableQuery.Source

/-! # The layout of batches

A batch is laid out by a schema if it has the types of the columns, in their order, and every row
has a value for each (`Batch.LaidOut`). Batches that are built from columns have such a layout, and
so do those that client data is turned into. -/

namespace TableQuery

namespace Batch

/-- **The columns of a batch are those of a schema**, in number, order and type. -/
structure LaidOut (s : Schema) (b : Batch) : Prop where
  types : b.types = s.types
  rectangular : b.Rectangular

variable {s : Schema} {b : Batch}

theorem LaidOut.numColumns_eq (h : b.LaidOut s) : b.numColumns = s.size := by
  rw [numColumns, h.types, Schema.types, List.length_map, Schema.size]

theorem LaidOut.length_eq (h : b.LaidOut s) {r : Row} (hr : r ∈ b.rows) :
    r.length = s.fields.length := by
  rw [h.rectangular r hr, h.types, Schema.types, List.length_map]

/-! ### Columns of a batch -/

theorem map_type_columns (b : Batch) : b.columns.map Column.type = b.types := by
  simp [columns, List.map_map, Function.comp_def]

theorem columns_getElem?_eq_some_iff {i : Nat} {c : Column} :
    b.columns[i]? = some c ↔ ∃ t, b.types[i]? = some t ∧
      ⟨t, b.rows.map fun r => r.getD i .null⟩ = c := by
  simp [columns, List.getElem?_zipIdx]

/-! ### Batches of columns -/

/-- The number of values in the first of some columns. -/
def columnLength (columns : List Column) : Nat := columns.head?.elim 0 fun c => c.values.length

/-- **Columns make a batch** if they have one length. -/
theorem ofColumns_eq_ok_iff {columns : List Column} : ofColumns columns = .ok b ↔
    (∀ c ∈ columns, c.values.length = columnLength columns) ∧
      b = ⟨columns.map Column.type, (List.range (columnLength columns)).map (rowAt columns)⟩ := by
  cases columns with
  | nil => simp [ofColumns, columnLength, empty, eq_comm]
  | cons first rest =>
    have hlength : columnLength (first :: rest) = first.values.length := rfl
    rw [ofColumns, hlength]
    split
    · rename_i c hc
      have hmem := List.mem_of_find?_eq_some hc
      have hne := List.find?_some hc
      simp only [ne_eq, decide_not, Bool.not_eq_true', decide_eq_false_iff_not] at hne
      exact ⟨fun h => (nomatch h), fun ⟨h, _⟩ => absurd (h c hmem) hne⟩
    · rename_i hnone
      have hall : ∀ c ∈ first :: rest, c.values.length = first.values.length := by
        simpa [List.find?_eq_none] using hnone
      rw [Except.ok.injEq, eq_comm]
      exact ⟨fun h => ⟨hall, h⟩, fun h => h.2⟩

theorem types_of_ofColumns {columns : List Column} (h : ofColumns columns = .ok b) :
    b.types = columns.map Column.type := by
  obtain ⟨-, rfl⟩ := ofColumns_eq_ok_iff.mp h
  rfl

theorem rectangular_of_ofColumns {columns : List Column} (h : ofColumns columns = .ok b) :
    b.Rectangular := by
  obtain ⟨-, rfl⟩ := ofColumns_eq_ok_iff.mp h
  intro r hr
  obtain ⟨i, -, rfl⟩ := List.mem_map.mp hr
  simp [rowAt]

end Batch

/-! ### Client data -/

namespace Source

variable {data : Source} {s : Schema} {b : Batch}

theorem type_of_columnAs {field : String × DataType} {c : Column}
    (h : data.columnAs field = .ok c) : c.type = field.2 := by
  unfold columnAs at h
  split at h
  · obtain ⟨vs, -, rfl⟩ := Result.map_eq_ok_iff.mp h
    rfl
  · cases h

theorem types_of_mapM_columnAs : ∀ {fields : List (String × DataType)} {columns : List Column},
    fields.mapM data.columnAs = .ok columns → columns.map Column.type = fields.map Prod.snd
  | [], _, h => by
    cases h
    rfl
  | field :: fields, _, h => by
    rw [List.mapM_cons] at h
    obtain ⟨c, hc, h⟩ := Result.bind_eq_ok_iff.mp h
    obtain ⟨cs, hcs, h⟩ := Result.bind_eq_ok_iff.mp h
    cases h
    rw [List.map_cons, List.map_cons, type_of_columnAs hc, types_of_mapM_columnAs hcs]

/-- **Client data is laid out** by the schema that it is turned into rows for. -/
theorem laidOut_of_toBatch (h : data.toBatch s = .ok b) : b.LaidOut s := by
  obtain ⟨columns, hcolumns, h⟩ := Result.bind_eq_ok_iff.mp h
  have htypes : columns.map Column.type = s.types := types_of_mapM_columnAs hcolumns
  split at h
  · rename_i hempty
    cases h
    rw [List.isEmpty_iff.mp hempty] at htypes
    refine ⟨htypes, fun r hr => ?_⟩
    rw [List.eq_of_mem_replicate hr]
    rfl
  · exact ⟨(Batch.types_of_ofColumns h).trans htypes, Batch.rectangular_of_ofColumns h⟩

end Source

end TableQuery
