import TableQuery.Proofs.Aggregation.Conforms
import TableQuery.Proofs.Join.Conforms
import TableQuery.Proofs.Operator.Layout
import TableQuery.Proofs.Window.Conforms

/-! # Types of results

The rows of a batch conform to a schema if every value conforms to the type of its column
(`Batch.Conforms`). Expressions, windows and aggregates that were resolved over a schema are typed
over its columns, so that each operator gives rows that conform to the schema of its node if its
inputs conform to theirs. By induction on the run the rows of a plan conform if those of its leaves
do, and if the columns that its joins make of two keys have types that both keys fit in
(`Plan.Executes.conforms`). -/

namespace TableQuery

/-- **The rows of a batch conform** to the types of a schema. -/
def Batch.Conforms (s : Schema) (b : Batch) : Prop :=
  ∀ r ∈ b.rows, List.Forall₂ Scalar.Conforms r s.types

/-- **Both keys fit in the column that a join makes of them**, in all joins of a plan. -/
def Plan.KeysFit (p : Plan) : Prop :=
  ∀ q ∈ p.nodes, match q with
    | .node (.join j) _ schema [l, r] => ∀ name a b t, ⟨name, .coalesce a b⟩ ∈ j.outputs →
        schema.type? name = some t → (JoinSource.coalesce a b).FitsIn l.schema r.schema t
    | _ => True

theorem Plan.KeysFit.of_child {op : Operation} {ref : TableRef} {schema : Schema}
    {children : List Plan} {c : Plan} (h : (node op ref schema children).KeysFit)
    (hc : c ∈ children) : c.KeysFit := fun q hq => h q (mem_nodes_of_child hc hq)

/-! ### Windows -/

namespace RowWindow

variable {s : Schema} {r : RowWindow}

theorem typed_of_resolve {c : WindowCall} {t : DataType} {k : Nat} (ht : c.expr.typeIn s = .ok t)
    (h : (c.named k).resolve (Scope.single s) = .ok r) : r.Typed s.types := by
  simp only [WindowCall.expr, Expr.typeIn, Result.bind_eq_ok_iff] at ht
  obtain ⟨_, -, _, -, ht⟩ := ht
  unfold NamedWindow.resolve at h
  dsimp only [WindowCall.named] at h
  cases hf : c.function with
  | rowNumber =>
    rw [hf] at h
    obtain ⟨_, hcall, h⟩ := Result.bind_eq_ok_iff.mp h
    cases hcall
    obtain ⟨partitionBy, -, h⟩ := Result.bind_eq_ok_iff.mp h
    obtain ⟨orderBy, -, h⟩ := Result.bind_eq_ok_iff.mp h
    cases h
    exact ⟨false, rfl⟩
  | aggregate f =>
    rw [hf] at h ht
    obtain ⟨⟨function, type⟩, hcall, h⟩ := Result.bind_eq_ok_iff.mp h
    obtain ⟨partitionBy, -, h⟩ := Result.bind_eq_ok_iff.mp h
    obtain ⟨orderBy, -, h⟩ := Result.bind_eq_ok_iff.mp h
    cases h
    obtain ⟨a, ha, hpair⟩ := Result.map_eq_ok_iff.mp hcall
    cases hpair
    exact ⟨rfl, (RowAggregate.typed_of_resolveCall ht ha).2⟩

/-- The columns of typed windows conform to the types of the windows, row by row. -/
theorem rowAt_conforms {ws : List RowWindow} {types : List DataType} {rows : List Row}
    {columns : List Column} (hws : ∀ w ∈ ws, w.Typed types)
    (hrows : ∀ r ∈ rows, List.Forall₂ Scalar.Conforms r types)
    (h : RowWindow.columns ws rows = .ok columns) (i : Nat) :
    List.Forall₂ Scalar.Conforms (Batch.rowAt columns i) (ws.map RowWindow.type) := by
  rw [Batch.rowAt, List.forall₂_map_left_iff, List.forall₂_map_right_iff]
  have hcolumns := (List.forall₂_and_left _ _).mpr ⟨hws, Result.forall₂_of_mapM h⟩
  refine hcolumns.flip.imp fun c w hcolumn => ?_
  obtain ⟨hw, hc⟩ := hcolumn
  obtain ⟨values, hvalues, rfl⟩ := Result.map_eq_ok_iff.mp hc
  rw [List.getD_eq_getElem?_getD]
  cases hi : values[i]? with
  | none => exact .null _
  | some v => exact hw.conforms_of_values hrows hvalues v (List.mem_of_getElem? hi)

end RowWindow

namespace OperatorPlan

variable {s w : Schema} {n : Nat} {ws : List WindowCall} {rs : List RowWindow}

theorem map_snd_windowFields (h : ws.length = rs.length) :
    (windowFields n ws rs).map Prod.snd = rs.map RowWindow.type := by
  have hlength : rs.length ≤ (WindowCall.nameFrom n ws).length := by
    simp [WindowCall.nameFrom, h]
  rw [windowFields, List.map_map]
  conv_rhs => rw [← List.map_snd_zip hlength, List.map_map]
  rfl

theorem WindowsOver.types_eq (h : WindowsOver s n ws rs w) :
    w.types = s.types ++ rs.map RowWindow.type := by
  rw [Schema.types, h.fields, List.map_append, map_snd_windowFields h.types.length_eq]
  rfl

theorem WindowsOver.typed (h : WindowsOver s n ws rs w) : ∀ r ∈ rs, r.Typed s.types := by
  intro r hr
  obtain ⟨j, hj⟩ := List.getElem?_of_mem hr
  obtain ⟨c, hc, ht⟩ := exists_of_forall₂_getElem? h.types.flip hj
  obtain ⟨r', hr', hresolve⟩ := h.getElem? hc
  obtain rfl : r = r' := Option.some.inj (hj.symm.trans hr')
  exact RowWindow.typed_of_resolve ht hresolve

end OperatorPlan

namespace Batch

variable {s : Schema} {b : Batch}

/-- Some of the rows, in any order. -/
theorem Conforms.of_subset (h : b.Conforms s) {rows : List Row} {types : List DataType}
    (hrows : rows ⊆ b.rows) : Conforms s ⟨types, rows⟩ := fun r hr => h r (hrows hr)

/-- A batch with the columns of windows conforms to the schema with these columns. -/
theorem Conforms.withColumns {w : Schema} {n : Nat} {ws : List WindowCall} {rs : List RowWindow}
    {columns : List Column} (h : b.Conforms s) (hw : OperatorPlan.WindowsOver s n ws rs w)
    (hcolumns : RowWindow.columns rs b.rows = .ok columns) :
    (b.withColumns columns).Conforms w := by
  intro r hr
  obtain ⟨⟨row, i⟩, hrow, rfl⟩ := List.mem_map.mp hr
  rw [hw.types_eq]
  refine List.rel_append (h row (List.fst_mem_of_mem_zipIdx hrow)) ?_
  exact RowWindow.rowAt_conforms hw.typed h hcolumns i

/-- A projection on typed expressions conforms to their types. -/
theorem Conforms.project {w : Schema} {xs : List RowExpr} {out : Batch} (h : b.Conforms w)
    (hxs : List.Forall₂ (fun x t => x.Typed w.types ∧ x.type = t) xs s.types)
    (hout : b.project xs s.types = .ok out) : out.Conforms s := by
  obtain ⟨rows, hrows, rfl⟩ := (project_eq_ok_iff hxs.length_eq.symm).mp hout
  intro row hrow
  obtain ⟨r, hr, heval⟩ := Result.exists_of_mem_mapM hrows row hrow
  rw [RowExpr.evalAll_eq_mapM] at heval
  refine forall₂_of_beside (fun x v t hv hx => ?_) (Result.forall₂_of_mapM heval) hxs
  exact hx.2 ▸ hx.1.eval_conforms (h r hr) hv

end Batch

/-! ### Aggregations -/

namespace Table

variable {s schema : Schema}

theorem typed_of_groupFields {groupBy : List Expr} {fields : List (String × DataType)}
    {keys : List RowExpr} (hfields : groupBy.mapM (groupField s) = .ok fields)
    (hkeys : Expr.resolveAll (Scope.single s) groupBy = .ok keys) :
    List.Forall₂ (fun x (f : String × DataType) => x.Typed s.types ∧ x.type = f.2) keys fields := by
  rw [Expr.resolveAll_eq_mapM] at hkeys
  refine forall₂_of_beside (fun key x f hx hf => ?_) (Result.forall₂_of_mapM hkeys)
    (Result.forall₂_of_mapM hfields)
  unfold groupField at hf
  split at hf
  · cases hf
  · obtain ⟨t, ht, rfl⟩ := Result.map_eq_ok_iff.mp hf
    obtain ⟨htype, htyped, -⟩ := (Expr.resolve_decides ht).good_of_ok hx
    exact ⟨htyped, htype⟩

theorem typed_of_metricFields {metrics : List Expr} {fields : List (String × DataType)}
    {aggregates : List RowAggregate} (hfields : metrics.mapM (metricField s) = .ok fields)
    (haggregates : metrics.mapM (Expr.resolveAggregate (Scope.single s)) = .ok aggregates) :
    List.Forall₂ (fun a (f : String × DataType) => a.Typed s.types ∧ a.type = f.2) aggregates
      fields := by
  refine forall₂_of_beside (fun metric a f ha hf => ?_) (Result.forall₂_of_mapM haggregates)
    (Result.forall₂_of_mapM hfields)
  unfold metricField at hf
  unfold Expr.resolveAggregate at ha
  split at hf
  · rename_i hmetric
    obtain ⟨t, ht, rfl⟩ := Result.map_eq_ok_iff.mp hf
    rw [← Expr.typeIn_unaliased, hmetric] at ht
    rw [hmetric] at ha
    obtain ⟨htype, htyped⟩ := RowAggregate.typed_of_resolveCall ht ha
    exact ⟨htyped, htype⟩
  · cases hf

end Table

/-- **The groups of an aggregation conform** to the schema of its node. -/
theorem Batch.Conforms.aggregate {s schema : Schema} {b : Batch} {groupBy metrics : List Expr}
    {keys : List RowExpr} {aggregates : List RowAggregate} {rows : List Row} (h : b.Conforms s)
    (hschema : Table.aggregateSchema s groupBy metrics = .ok schema)
    (hkeys : Expr.resolveAll (Scope.single s) groupBy = .ok keys)
    (haggregates : metrics.mapM (Expr.resolveAggregate (Scope.single s)) = .ok aggregates)
    (hrows : RowAggregation.rows ⟨keys, aggregates⟩ b.rows = .ok rows) :
    ∀ row ∈ rows, List.Forall₂ Scalar.Conforms row schema.types := by
  obtain ⟨keyFields, hkeyFields, hschema⟩ := Result.bind_eq_ok_iff.mp hschema
  obtain ⟨metricFields, hmetricFields, hschema⟩ := Result.bind_eq_ok_iff.mp hschema
  split at hschema
  · cases hschema
  · obtain ⟨hkeys, hkeyTypes⟩ := (List.forall₂_and_left _ _).mp
      (Table.typed_of_groupFields hkeyFields hkeys)
    obtain ⟨haggregates, haggregateTypes⟩ := (List.forall₂_and_left _ _).mp
      (Table.typed_of_metricFields hmetricFields haggregates)
    have hrows := RowAggregation.conforms_of_rows hkeys haggregates h hrows
    rwa [map_eq_map_of_forall₂ hkeyTypes, map_eq_map_of_forall₂ haggregateTypes, ← List.map_append,
      ← Table.Sound.fields_of_outputSchema hschema] at hrows

/-! ### Plans -/

/-- **The rows of a plan conform** to its types, if those of its leaves do and both keys fit in the
columns that joins make of them. -/
theorem Plan.Executes.conforms {provider : RowProvider} {p : Plan} {op : OperatorPlan} {b : Batch}
    (h : p.Executes provider op b) (hleaves : p.LeavesGive provider Batch.Conforms)
    (hkeys : p.KeysFit) : b.Conforms p.schema := by
  induction h with
  | scan hb | sqlQuery hb => exact hleaves _ (mem_nodes_self _) _ hb
  | values => exact hleaves _ (mem_nodes_self _)
  | project hc hfields hprojected hcolumns hrun ih =>
    have hinput := ih (hleaves.of_child List.mem_cons_self) (hkeys.of_child List.mem_cons_self)
    rw [← hc.schema_eq] at hfields hinput
    exact (hinput.withColumns hprojected.windows hcolumns).project (hprojected.typed hfields) hrun
  | filter _ hfilter _ hrows ih =>
    have hinput := ih (hleaves.of_child List.mem_cons_self) (hkeys.of_child List.mem_cons_self)
    rw [← Table.schema_of_filterSchema hfilter] at hinput
    exact hinput.of_subset (RowExpr.keepRows_sublist hrows).subset
  | @join j ref schema l r left right suffixes selfRef predicate kind join leftInput rightInput b
      rows _ _ hplan hresolve hrows hb ihl ihr =>
    obtain ⟨-, houtputs⟩ := JoinInputs.planOutputs_of_plan hplan
    obtain ⟨conditions, -, hresolve⟩ := Result.bind_eq_ok_iff.mp hresolve
    obtain ⟨residual, -, hresolve⟩ := Result.bind_eq_ok_iff.mp hresolve
    obtain ⟨sources, hsources, hresolve⟩ := Result.bind_eq_ok_iff.mp hresolve
    cases hresolve
    obtain ⟨-, rfl⟩ := Batch.ofRows_eq_ok_iff.mp hb
    have hfits : List.Forall₂ (fun s t => s.FitsIn l.schema.types r.schema.types t) sources
        schema.types := by
      refine forall₂_of_beside ?_ (Result.forall₂_of_mapM hsources)
        (JoinInputs.planOutputs_fits houtputs (hkeys _ (mem_nodes_self _)))
      exact fun _ _ _ hs ho => Join.fitsIn_of_rowSource hs ho
    refine RowJoin.conforms_of_rows hfits (ihl ?_ ?_) (ihr ?_ ?_) hrows
    · exact hleaves.of_child List.mem_cons_self
    · exact hkeys.of_child List.mem_cons_self
    · exact hleaves.of_child (List.mem_cons_of_mem _ List.mem_cons_self)
    · exact hkeys.of_child (List.mem_cons_of_mem _ List.mem_cons_self)
  | aggregate _ hschema hresolved haggregates hrows hb ih =>
    have hinput := ih (hleaves.of_child List.mem_cons_self) (hkeys.of_child List.mem_cons_self)
    obtain ⟨-, rfl⟩ := Batch.ofRows_eq_ok_iff.mp hb
    exact hinput.aggregate hschema hresolved haggregates hrows
  | order _ _ _ hrows ih =>
    exact (ih (hleaves.of_child List.mem_cons_self)
      (hkeys.of_child List.mem_cons_self)).of_subset (Row.sort_perm hrows).subset
  | limit _ ih =>
    have hinput := ih (hleaves.of_child List.mem_cons_self) (hkeys.of_child List.mem_cons_self)
    exact hinput.of_subset (Batch.slice_rows_sublist _ _ _).subset

end TableQuery
