import TableQuery.Proofs.Sql.Selecting
import TableQuery.Proofs.Store.Reading
import TableQuery.Proofs.Store.Schemas

/-! # What the store answers

A query of the store is a plain selection. In a store that calls have made, it is answered whenever
the store reports a schema for it, with the columns of this schema: the values of the selected
columns in the rows of the range, one after the other (`StoredTable.Answers`).

The main statement is `Store.Reachable.answers_query`. Both the schema and the rows come from the
positions that the selected columns have in the table (`StoredTable.Placed`). A table without
columns has no rows (`Store.Reachable.emptyWithoutColumns`), so that a selection of all its columns
does not lose any. The rows of the range can be had by slicing the selected columns
(`Store.Reachable.query_eq_slice`). -/

namespace TableQuery

open Result

/-! ### Ranges of rows -/

namespace Batch

theorem numRows_slice (b : Batch) (offset : Nat) (limit : Option Nat) :
    (b.slice offset limit).numRows =
      limit.elim (b.numRows - offset) fun n => min n (b.numRows - offset) := by
  cases limit <;> simp [slice, numRows]

theorem row?_of_slice {b : Batch} {offset : Nat} {limit : Option Nat} {k : Nat} {row : Row}
    (h : (b.slice offset limit).row? k = some row) : b.row? (offset + k) = some row := by
  cases limit with
  | none => simpa [slice, row?] using h
  | some n =>
    simp only [slice, row?, List.getElem?_take, List.getElem?_drop] at h ⊢
    split at h
    · exact h
    · cases h

/-- Columns that are read off some rows make up a batch, which has as many rows. Without columns
there must be no rows. -/
theorem ofColumns_map {α : Type} {xs : List α} (type : α → DataType) (position : α → Nat)
    {rows : List Row} (h : xs = [] → rows = []) :
    ofColumns (xs.map fun x => ⟨type x, rows.map fun r => r.getD (position x) .null⟩) =
      .ok ⟨xs.map type, rows.map fun r => xs.map fun x => r.getD (position x) .null⟩ := by
  have hlength : columnLength (xs.map fun x =>
      (⟨type x, rows.map fun r => r.getD (position x) .null⟩ : Column)) = rows.length := by
    cases xs with
    | nil => rw [h rfl]; rfl
    | cons x r => simp [columnLength]
  rw [ofColumns_eq_ok_iff, hlength]
  refine ⟨by simp, ?_⟩
  congr 1
  · simp
  · refine List.ext_getElem (by simp) fun i hi _ => ?_
    simp only [List.length_map] at hi
    simp [rowAt, hi]

end Batch

/-! ### Selected columns -/

theorem Schema.index?_of_names {s : Schema} {i : Nat} {name : String}
    (h : s.names[i]? = some name) : s.index? name = some i := by
  rw [names, List.getElem?_map, Option.map_eq_some_iff] at h
  obtain ⟨⟨n, t⟩, hfield, rfl⟩ := h
  exact (index?_type?_iff.mpr hfield).1

/-- The columns that a selection selects from a table. -/
def Sql.Selection.columnsOf (q : Sql.Selection) (schema : Schema) : List Sql.SelectedColumn :=
  q.columns.getD (schema.names.map fun n => ⟨n, none⟩)

/-- **A selected column has its place** in a table: a position, and the name that it comes out
under. -/
def StoredTable.Placed (t : StoredTable) (c : Sql.SelectedColumn) (p : Nat × String) : Prop :=
  t.schema.index? c.column = some p.1 ∧ p.2 = c.outputName

namespace Store

variable {s : Store} {q : Sql.Selection} {t : StoredTable} {columns : List (Nat × String)}

theorem placed_of_selectedColumn {table : String} {c : Sql.SelectedColumn} {p : Nat × String}
    (h : selectedColumn table t.schema c = .ok p) : t.Placed c p := by
  unfold selectedColumn at h
  split at h
  · cases h
    exact ⟨‹_›, rfl⟩
  · cases h

/-- **The columns of a selection are found at their places.** -/
theorem placed_of_resolve (h : s.resolve q = .ok (t, columns)) :
    List.Forall₂ t.Placed (q.columnsOf t.schema) columns := by
  obtain ⟨u, hu, h⟩ := bind_eq_ok_iff.mp h
  split at h
  · rename_i hall
    cases h
    rw [Sql.Selection.columnsOf, hall, Option.getD_none, forall₂_iff_getElem?]
    refine ⟨by simp, fun i c p hc hp => ?_⟩
    rw [List.getElem?_map, Option.map_eq_some_iff] at hc hp
    obtain ⟨n, hn, rfl⟩ := hc
    obtain ⟨⟨m, k⟩, hp, rfl⟩ := hp
    obtain ⟨hm, rfl⟩ : t.schema.names[i]? = some m ∧ i = k := by
      simpa [List.getElem?_zipIdx] using hp
    obtain rfl : n = m := Option.some.inj (hn.symm.trans hm)
    exact ⟨Schema.index?_of_names hn, rfl⟩
  · rename_i cs hcs
    obtain ⟨picked, hpicked, h⟩ := bind_eq_ok_iff.mp h
    cases h
    rw [Sql.Selection.columnsOf, hcs, Option.getD_some]
    exact (forall₂_of_mapM hpicked).imp fun _ _ => placed_of_selectedColumn

/-! ### Tables without columns -/

theorem numRows_of_conform {name : String} {schema : Schema} {data rows : Batch}
    (h : conform name schema data = .ok rows) (hfields : schema.fields = []) :
    rows.numRows = 0 := by
  unfold conform at h
  split at h
  · cases h
  · split at h <;> cases h
    rw [hfields]
    rfl

theorem numRows_of_firstRows {name : String} {schema : Schema} {data : Option Batch}
    {rows : ColumnBatch} (h : firstRows name schema data = .ok rows)
    (hfields : schema.fields = []) :
    rows.numRows = 0 := by
  obtain ⟨-, rfl⟩ | ⟨b, checked, -, hchecked, rfl⟩ := firstRows_eq_ok_iff.mp h
  · rfl
  · exact numRows_of_conform hchecked hfields

end Store

/-- A table that has no rows if it has no columns. -/
def StoredTable.EmptyWithoutColumns (t : StoredTable) : Prop :=
  t.schema.fields = [] → t.data.numRows = 0

/-- One call keeps tables without columns empty. -/
theorem StoreCall.emptyWithoutColumns_of_change (c : StoreCall) {s : Store}
    (hs : ∀ p ∈ s.tables, p.2.EmptyWithoutColumns) :
    ∀ p ∈ (c.change s).2.tables, p.2.EmptyWithoutColumns := by
  have hput : ∀ {name : String} {t : StoredTable}, t.EmptyWithoutColumns →
      ∀ p ∈ Store.put name t s.tables, p.2.EmptyWithoutColumns := fun ht p hp => by
    rcases Store.mem_put hp with rfl | hp
    · exact ht
    · exact hs p hp
  cases c with
  | create name schema data onConflict =>
    obtain ⟨e, h⟩ | h | ⟨rows, hrows, h⟩ :=
      s.create_cases name schema (data.map Subtype.val) onConflict
    all_goals rw [change, Store.lift, h]
    · exact hs
    · exact hs
    · exact hput (Store.numRows_of_firstRows hrows)
  | insert name data =>
    obtain ⟨e, h⟩ | ⟨t, rows, ht, hrows, -, h⟩ := s.insert_cases name data.val
    all_goals rw [change, h]
    · exact hs
    · refine hput fun hfields => Nat.le_zero.mp ?_
      have hold : t.data.numRows = 0 := hs _ (Store.mem_of_find ht) hfields
      have hnew : rows.numRows = 0 := Store.numRows_of_conform hrows hfields
      calc (t.data.append (.ofBatch rows)).2.numRows
          _ ≤ t.data.numRows + rows.numRows := ColumnBatch.numRows_append_le t.data (.ofBatch rows)
          _ = 0 := by rw [hold, hnew]
  | truncate name =>
    obtain ⟨e, h⟩ | ⟨t, -, h⟩ := s.truncate_cases name
    all_goals rw [change, Store.lift, h]
    · exact hs
    · exact hput fun _ => rfl
  | drop name force => exact fun p hp => hs p (List.mem_filter.mp hp).1

namespace Store

variable {s : Store} {name sql : String} {t : StoredTable} {schema : Schema}

/-- **A table without columns has no rows**, in every store that calls make. -/
theorem Reachable.emptyWithoutColumns (h : s.Reachable) (ht : s.find name = .ok t) :
    t.EmptyWithoutColumns := by
  have hall : ∀ p ∈ s.tables, p.2.EmptyWithoutColumns := by
    clear ht
    induction h with
    | empty => exact fun p hp => nomatch hp
    | change _ ih => exact StoreCall.emptyWithoutColumns_of_change _ ih
  exact hall _ (mem_of_find ht)

end Store

/-! ### Answers -/

/-- **What a selection is answered with**: columns as the schema says, each under its name and with
the type of the selected column; as many rows as the range holds of those of the table; and in each
of them the values of the selected columns in the row of the table at its place in the range. -/
structure StoredTable.Answers (t : StoredTable) (q : Sql.Selection) (schema : Schema) (b : Batch) :
    Prop where
  laidOut : b.LaidOut schema
  columns : List.Forall₂ (fun (c : Sql.SelectedColumn) (field : String × DataType) =>
    field.1 = c.outputName ∧ t.schema.type? c.column = some field.2)
    (q.columnsOf t.schema) schema.fields
  numRows : b.numRows = q.limit.elim (t.data.numRows - q.offset) fun n =>
    min n (t.data.numRows - q.offset)
  rows : ∀ (k : Nat) (row : Row), b.row? k = some row → ∃ r, t.data.row? (q.offset + k) = some r ∧
    row = (q.columnsOf t.schema).map fun c => t.schema.valueAt r c.column

/-- The values at the places of the selected columns, in the range of a selection, are its
answer. -/
theorem StoredTable.answers_of_placed {t : StoredTable} (ht : t.data.Aligned) {q : Sql.Selection}
    {schema : Schema} {columns : List (Nat × String)}
    (hplaced : List.Forall₂ t.Placed (q.columnsOf t.schema) columns)
    (hfields : schema.fields = columns.map fun c => (c.2, t.schema.types.getD c.1 .unknown)) :
    t.Answers q schema (Batch.slice
      ⟨columns.map fun c => t.schema.types.getD c.1 .unknown,
        t.data.rows.map fun r => columns.map fun c => r.getD c.1 .null⟩ q.offset q.limit) where
  laidOut := by
    refine ⟨by simp [Batch.slice, Schema.types, hfields], fun row hrow => ?_⟩
    obtain ⟨r, -, rfl⟩ := List.mem_map.mp ((Batch.slice_rows_sublist _ _ _).subset hrow)
    simp [Batch.slice]
  columns := by
    rw [hfields, List.forall₂_map_right_iff]
    refine hplaced.imp fun c p hp => ⟨hp.2, ?_⟩
    have hname := Schema.names_of_index? hp.1
    rw [Schema.names, List.getElem?_map, Option.map_eq_some_iff] at hname
    obtain ⟨⟨n, u⟩, hfield, rfl⟩ := hname
    have htype : t.schema.types[p.1]? = some u :=
      Schema.types_getElem?_eq_some_iff.mpr ⟨_, hfield, rfl⟩
    rw [(Schema.index?_type?_iff.mpr hfield).2, List.getD_eq_getElem?_getD, htype, Option.getD_some]
  numRows := by
    rw [Batch.numRows_slice, Batch.numRows, List.length_map, ht.length_rows]
  rows k row hrow := by
    have hk := Batch.row?_of_slice hrow
    rw [Batch.row?, List.getElem?_map, Option.map_eq_some_iff] at hk
    obtain ⟨r, hr, rfl⟩ := hk
    refine ⟨r, (ht.row?_eq_getElem? _).trans hr,
      (map_eq_map_of_forall₂ (hplaced.imp fun c p hp => ?_)).symm⟩
    rw [Schema.valueAt, hp.1]

namespace Store

variable {s : Store} {name sql : String} {t : StoredTable} {schema : Schema}

/-- **A query is answered on columns**, as long as the rows of its table can be counted: what it
selects is sliced without being read row by row. -/
theorem Reachable.query_eq_slice (hs : s.Reachable) {q : Sql.Selection}
    (hq : Sql.Selection.parse sql = .ok q) {columns : List (Nat × String)}
    (hresolve : s.resolve q = .ok (t, columns)) (hcount : t.data.numRows ≤ maxCount) :
    s.query sql = ColumnBatch.ofColumns (columns.filterMap fun c => t.data.columns[c.1]?) >>=
      fun picked => (picked.slice q.offset q.limit).map ColumnBatch.toBatch := by
  have haligned := (hs.sound_table (lt_of_resolve hresolve).1).aligned
  rw [query, read_eq_ok_iff.mpr hq, ok_bind, read_eq_ok_iff.mpr hresolve, ok_bind]
  dsimp only
  cases hpicked : ColumnBatch.ofColumns (columns.filterMap fun c => t.data.columns[c.1]?) with
  | error e => rfl
  | ok picked =>
    obtain ⟨-, rfl⟩ := ColumnBatch.ofColumns_eq_ok_iff.mp hpicked
    refine ((ColumnBatch.aligned_of_ofColumns hpicked).toBatch_slice ?_ q.offset q.limit).symm
    -- The selected columns are as long as the table, if there are any.
    cases hfirst : columns.filterMap fun c => t.data.columns[c.1]? with
    | nil => exact Nat.zero_le _
    | cons c rest =>
      have hc : c ∈ columns.filterMap fun c => t.data.columns[c.1]? := hfirst ▸ List.mem_cons_self
      obtain ⟨p, -, hp⟩ := List.mem_filterMap.mp hc
      have hlength : c.values.length = t.data.numRows := haligned c (List.mem_of_getElem? hp)
      exact hlength.le.trans hcount

/-- **A query is answered as its schema says.** In every store that calls make, a text for which a
schema is reported is a selection from a table of the store, and the query gives the answer to
it. -/
theorem Reachable.answers_query (hs : s.Reachable) (h : s.querySchema sql = .ok schema) :
    ∃ q t b, Sql.Selection.parse sql = .ok q ∧ s.find q.table = .ok t ∧
      s.query sql = .ok b ∧ t.Answers q schema b := by
  obtain ⟨q, hq, h⟩ := bind_eq_ok_iff.mp h
  obtain ⟨⟨t, columns⟩, hresolve, h⟩ := bind_eq_ok_iff.mp h
  have hfields := Schema.ofFields_eq_ok_iff.mp h
  have hplaced := placed_of_resolve (read_eq_ok_iff.mp hresolve)
  obtain ⟨hfind, hlt⟩ := lt_of_resolve (read_eq_ok_iff.mp hresolve)
  have hsound := hs.sound_table hfind
  -- No column is selected only where all are, from a table that has none.
  have hnone : columns = [] → t.data.rows = [] := by
    rintro rfl
    have hempty := List.forall₂_nil_right_iff.mp hplaced
    have hlisted := Sql.Selection.columns_ne_nil (read_eq_ok_iff.mp hq)
    rw [← List.length_eq_zero_iff, hsound.aligned.length_rows]
    refine hs.emptyWithoutColumns hfind ?_
    cases hcolumns : q.columns with
    | none => simpa [Sql.Selection.columnsOf, hcolumns, Schema.names] using hempty
    | some cs =>
      rw [Sql.Selection.columnsOf, hcolumns, Option.getD_some] at hempty
      exact absurd (hempty ▸ hcolumns) hlisted
  have hpicked := Batch.ofColumns_map (fun c : Nat × String => t.schema.types.getD c.1 .unknown)
    Prod.fst hnone
  rw [← filterMap_columns_getElem? hsound hlt, ← ColumnBatch.toBatch_ofColumns] at hpicked
  obtain ⟨picked, hpicked, hrows⟩ := map_eq_ok_iff.mp hpicked
  refine ⟨q, t, _, read_eq_ok_iff.mp hq, hfind, ?_,
    StoredTable.answers_of_placed hsound.aligned hplaced hfields⟩
  rw [query, hq, ok_bind, hresolve, ok_bind]
  dsimp only
  rw [hpicked, ok_bind, pure_eq_ok, hrows]

/-- Columns that are repeated and renamed, for two of the rows behind the first one. -/
theorem Reachable.answers_query_range :
    let schema : Schema := ⟨[("a", .int .int64), ("b", .utf8)], by decide⟩
    let one : Scalar := .int .int64 ⟨1, by decide, by decide⟩
    let rows : { b : Batch // b.Rectangular } :=
      ⟨⟨[.int .int64, .utf8], [[.null, .utf8 "x"], [one, .utf8 "y"], [.null, .utf8 "z"],
        [.null, .null]]⟩, by simp [Batch.Rectangular]⟩
    let s : Store := ⟨[("t", ⟨schema, .ofBatch rows.val⟩)]⟩
    let sql := "SELECT b AS c, a, b AS d FROM t LIMIT 2 OFFSET 1"
    let answered : Schema := ⟨[("c", .utf8), ("a", .int .int64), ("d", .utf8)], by decide⟩
    s.Reachable ∧ s.querySchema sql = .ok answered ∧
      ∃ b, s.query sql = .ok b ∧ b.LaidOut answered ∧ b.numRows = 2 ∧
        ∀ row, b.row? 0 = some row → row = [.utf8 "y", one, .utf8 "y"] := by
  intro schema one rows s sql answered
  have hs : s.Reachable := .change (c := .create "t" schema (some rows) .error) .empty
  have hparse : Sql.Selection.parse sql =
      .ok ⟨"t", some [⟨"b", some "c"⟩, ⟨"a", none⟩, ⟨"b", some "d"⟩], some 2, 1⟩ :=
    toOption_eq_some_iff.mp (by decide +kernel)
  have hschema : s.querySchema sql = .ok answered := by
    rw [querySchema, hparse]
    rfl
  obtain ⟨q, t, b, hq, ht, hb, hanswer⟩ := hs.answers_query hschema
  rw [hparse] at hq
  cases hq
  cases ht
  refine ⟨hs, hschema, b, hb, hanswer.laidOut, hanswer.numRows, fun row hrow => ?_⟩
  obtain ⟨r, hr, rfl⟩ := hanswer.rows 0 row hrow
  cases hr
  rfl

end Store

end TableQuery
