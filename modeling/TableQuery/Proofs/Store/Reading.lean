import TableQuery.Proofs.Batch.Layout
import TableQuery.Proofs.Operator.Execution
import TableQuery.Proofs.Operator.Rows
import TableQuery.Proofs.Store.Invariant

/-! # Reading from the store

Plans read from a store by scans and by queries. In a store that calls have made, a scan gives a
batch that is laid out by the schema of the table (`Reachable.laidOut_of_scan`), and a query one
that is laid out by the schema reported for it (`Reachable.laidOut_of_query`), whose rows are made
of those of the table (`Reachable.picked_of_query`). A plan is in step with a store when the schemas
of its leaves are those that the store has now (`Plan.InStep`). -/

namespace TableQuery

namespace Store

/-- **The stores that calls make**, from the empty one. -/
inductive Reachable : Store → Prop
  | empty : Reachable .empty
  | change {s : Store} {c : StoreCall} : Reachable s → Reachable (c.change s).2

variable {s : Store} {name : String} {t : StoredTable} {b : Batch} {schema : Schema}

theorem Reachable.sound (h : s.Reachable) : s.Sound := by
  induction h with
  | empty => exact sound_empty
  | change _ ih => exact StoreCall.sound_of_change ih

theorem Reachable.sound_table (h : s.Reachable) (ht : s.find name = .ok t) : t.Sound :=
  h.sound.tables _ (mem_of_find ht)

end Store

theorem Session.runCalls_reachable {s : Session} (hs : s.store.Reachable) (calls : List StoreCall) :
    (s.runCalls calls).store.Reachable := by
  induction calls generalizing s with
  | nil => exact hs
  | cons c calls ih => exact ih (s := (c.runOn s).2) (.change hs)

namespace Store

variable {s : Store} {name sql : String} {t : StoredTable} {b : Batch} {schema : Schema}

theorem read_eq_ok_iff {α : Type} {r : Except StoreError α} {a : α} :
    read r = .ok a ↔ r = .ok a := by
  cases r <;> simp [read, Except.mapError]

/-! ### Scans -/

theorem scan_eq_ok_iff : s.scan name = .ok b ↔ ∃ t, s.find name = .ok t ∧ t.data.toBatch = b := by
  rw [scan, read_eq_ok_iff, Result.map_eq_ok_iff]

/-- **A scan** gives a batch with the columns of the table. -/
theorem Reachable.laidOut_of_scan (hs : s.Reachable) (ht : s.find name = .ok t)
    (h : s.scan name = .ok b) : b.LaidOut t.schema := by
  obtain ⟨u, hu, rfl⟩ := scan_eq_ok_iff.mp h
  rw [ht] at hu
  cases hu
  exact (hs.sound_table ht).laidOut

/-! ### Queries -/

theorem lt_of_selectedColumn {c : Sql.SelectedColumn} {p : Nat × String}
    (h : selectedColumn name schema c = .ok p) : p.1 < schema.fields.length := by
  unfold selectedColumn at h
  split at h
  · rename_i i hi
    cases h
    have hname := Schema.names_of_index? hi
    have hlt : i < schema.names.length := (List.getElem?_eq_some_iff.mp hname).1
    rwa [Schema.names, List.length_map] at hlt
  · cases h

/-- The columns of a selection are at positions of the table. -/
theorem lt_of_resolve {selection : Sql.Selection} {columns : List (Nat × String)}
    (h : s.resolve selection = .ok (t, columns)) :
    s.find selection.table = .ok t ∧ ∀ c ∈ columns, c.1 < t.schema.fields.length := by
  obtain ⟨u, hu, h⟩ := Result.bind_eq_ok_iff.mp h
  split at h
  · cases h
    refine ⟨hu, fun c hc => ?_⟩
    obtain ⟨p, hp, rfl⟩ := List.mem_map.mp hc
    have hlt := List.snd_lt_of_mem_zipIdx hp
    rwa [Schema.names, List.length_map, Nat.add_zero] at hlt
  · obtain ⟨picked, hpicked, h⟩ := Result.bind_eq_ok_iff.mp h
    cases h
    refine ⟨hu, fun c hc => ?_⟩
    obtain ⟨_, -, hselected⟩ := Result.exists_of_mem_mapM hpicked c hc
    exact lt_of_selectedColumn hselected

/-- The columns of a table at the given positions. -/
theorem filterMap_columns_getElem? (ht : t.Sound)
    {columns : List (Nat × String)} (h : ∀ c ∈ columns, c.1 < t.schema.fields.length) :
    columns.filterMap (fun c => t.data.columns[c.1]?) = columns.map fun c =>
      ⟨t.schema.types.getD c.1 .unknown, t.data.rows.map fun r => r.getD c.1 .null⟩ := by
  rw [← ht.aligned.columns_toBatch, ← List.filterMap_eq_map]
  refine List.filterMap_congr fun c hc => ?_
  obtain ⟨u, hu⟩ : ∃ u, t.schema.types[c.1]? = some u := by
    have hlt : c.1 < t.schema.types.length := by
      rw [Schema.types, List.length_map]
      exact h c hc
    exact ⟨_, List.getElem?_eq_getElem hlt⟩
  rw [Batch.columns_getElem?_eq_some_iff.mpr ⟨u, ht.laidOut.types ▸ hu, rfl⟩, Function.comp_apply,
    List.getD_eq_getElem?_getD, hu]
  rfl

end Store

/-- **What a query picks**: columns of a table by their positions, for some of its rows. -/
structure StoredTable.Picked (t : StoredTable) (positions : List Nat) (b : Batch) : Prop where
  types : b.types = positions.map fun i => t.schema.types.getD i .unknown
  rows : ∀ row ∈ b.rows, ∃ r ∈ t.data.rows, row = positions.map fun i => r.getD i .null

namespace StoredTable.Picked

variable {t : StoredTable} {positions : List Nat} {b : Batch}

theorem rectangular (h : t.Picked positions b) : b.Rectangular := by
  intro row hrow
  obtain ⟨r, -, rfl⟩ := h.rows row hrow
  rw [h.types, List.length_map, List.length_map]

theorem slice (h : t.Picked positions b) (offset : Nat) (n : Option Nat) :
    t.Picked positions (b.slice offset n) :=
  ⟨h.types, fun row hrow => h.rows row ((Batch.slice_rows_sublist b offset n).subset hrow)⟩

theorem of_ofColumns (ht : t.Sound) {columns : List (Nat × String)}
    (hcolumns : ∀ c ∈ columns, c.1 < t.schema.fields.length) {picked : ColumnBatch}
    (h : ColumnBatch.ofColumns (columns.filterMap fun c => t.data.columns[c.1]?) = .ok picked) :
    t.Picked (columns.map Prod.fst) picked.toBatch := by
  have hrows := ColumnBatch.toBatch_ofColumns (columns.filterMap fun c => t.data.columns[c.1]?)
  rw [h, Store.filterMap_columns_getElem? ht hcolumns] at hrows
  obtain ⟨-, hpicked⟩ := Batch.ofColumns_eq_ok_iff.mp hrows.symm
  rw [hpicked]
  refine ⟨by simp [Function.comp_def], fun row hrow => ?_⟩
  obtain ⟨i, hi, rfl⟩ := List.mem_map.mp hrow
  have hlt : i < t.data.rows.length := by
    cases columns with
    | nil => simp [Batch.columnLength] at hi
    | cons c rest => simpa [Batch.columnLength] using hi
  refine ⟨t.data.rows[i], List.getElem_mem hlt, ?_⟩
  simp [Batch.rowAt, hlt]

end StoredTable.Picked

namespace Store

variable {s : Store} {sql : String} {b : Batch} {schema : Schema}

/-- **A query** picks columns of a table of the store, whose types are those of the schema that the
store reports for it. -/
theorem Reachable.picked_of_query (hs : s.Reachable) (h : s.query sql = .ok b)
    (hschema : s.querySchema sql = .ok schema) : ∃ name t positions, s.find name = .ok t ∧
      (∀ i ∈ positions, i < t.schema.fields.length) ∧ t.Picked positions b ∧
        schema.types = b.types := by
  obtain ⟨selection, hselection, h⟩ := Result.bind_eq_ok_iff.mp h
  obtain ⟨⟨t, columns⟩, hresolve, h⟩ := Result.bind_eq_ok_iff.mp h
  obtain ⟨picked, hpicked, h⟩ := Result.bind_eq_ok_iff.mp h
  cases h
  obtain ⟨selection', hselection', hschema⟩ := Result.bind_eq_ok_iff.mp hschema
  obtain rfl : selection = selection' := Except.ok.inj (hselection.symm.trans hselection')
  obtain ⟨p, hresolve', hschema⟩ := Result.bind_eq_ok_iff.mp hschema
  obtain rfl : (t, columns) = p := Except.ok.inj (hresolve.symm.trans hresolve')
  obtain ⟨hfind, hcolumns⟩ := lt_of_resolve (read_eq_ok_iff.mp hresolve)
  have hslice := (StoredTable.Picked.of_ofColumns (hs.sound_table hfind) hcolumns hpicked).slice
    selection.offset selection.limit
  refine ⟨_, t, columns.map Prod.fst, hfind, List.forall_mem_map.mpr hcolumns, hslice, ?_⟩
  rw [hslice.types, Schema.types, Schema.ofFields_eq_ok_iff.mp hschema, List.map_map, List.map_map]
  rfl

theorem Reachable.laidOut_of_query (hs : s.Reachable) (h : s.query sql = .ok b)
    (hschema : s.querySchema sql = .ok schema) : b.LaidOut schema := by
  obtain ⟨_, t, positions, -, -, hpicked, htypes⟩ := hs.picked_of_query h hschema
  exact ⟨htypes.symm, hpicked.rectangular⟩

end Store

/-! ### Plans over a store -/

/-- **A plan in step with a store**: every table that it scans is stored with the columns that the
scan expects, and every query in it has the schema that the store reports for it. -/
def Plan.InStep (s : Store) (p : Plan) : Prop :=
  ∀ q ∈ p.nodes, match q.op with
    | .scan name => ∃ t, s.find name = .ok t ∧ t.schema = q.schema
    | .sqlQuery query => s.querySchema query = .ok q.schema
    | _ => True

namespace Plan

variable {s : Store} {ref : TableRef} {schema : Schema}

theorem InStep.scan {name : String} {t : StoredTable} (h : s.find name = .ok t) :
    (node (.scan name) ref t.schema []).InStep s := by
  intro q hq
  rw [List.mem_singleton.mp hq]
  exact ⟨t, h, rfl⟩

theorem InStep.join {j : Join} {l r : Plan} (hl : l.InStep s) (hr : r.InStep s) :
    (node (.join j) ref schema [l, r]).InStep s := by
  intro q hq
  rcases mem_nodes_binary.mp hq with rfl | hq | hq
  · trivial
  · exact hl q hq
  · exact hr q hq

end Plan

/-- Rows held in the plan of a table are laid out by the schemas of their nodes. -/
theorem Table.Built.holds_laidOut {next : TableRef} {t : Table} (h : Built next t) :
    t.root.Holds Batch.LaidOut := by
  rintro ⟨op, ref, schema, children⟩ hq b rfl
  obtain ⟨data, -, hb⟩ := h.exists_source_of_values hq
  exact Source.laidOut_of_toBatch hb

/-- **The leaves of a table in step with a store** give batches laid out by their schemas. -/
theorem Table.Built.leavesGive_laidOut {next : TableRef} {t : Table} (h : Built next t) {s : Store}
    (hs : s.Reachable) (hstep : t.root.InStep s) :
    t.root.LeavesGive s.provider Batch.LaidOut := by
  intro q hq
  have hq' := hstep q hq
  obtain ⟨op, ref, schema, children⟩ := q
  cases op with
  | scan name =>
    obtain ⟨u, hu, hschema⟩ := hq'
    intro b hb
    exact hschema ▸ hs.laidOut_of_scan hu hb
  | sqlQuery query => exact fun b hb => hs.laidOut_of_query hb hq'
  | values batch => exact h.holds_laidOut _ hq batch rfl
  | _ => trivial

end TableQuery
