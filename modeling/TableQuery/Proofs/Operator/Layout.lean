import TableQuery.Proofs.Batch.Layout
import TableQuery.Proofs.Operator.Execution
import TableQuery.Proofs.Operator.Rows

/-! # The layout of results

The schema of a plan is worked out by the calls that build it, and the types of a batch by the
operators that compute it. Each operator lays out its rows by the schema of its node if its inputs
are laid out by those of theirs: some take the types of the node and make rows of their width, some
keep the types of their input. By induction on the run, a plan whose leaves give batches of their
schemas gives a batch of its own (`Plan.Executes.laidOut`). -/

namespace TableQuery

namespace OperatorPlan.Projected

variable {child op : OperatorPlan} {exprs : List Expr} {schema w : Schema} {n : Nat}
  {rs : List RowWindow} {xs : List RowExpr}

/-- **The expressions of a projection are typed** over the columns of its input and its windows, and
have the types of its own columns. -/
theorem typed (h : Projected child exprs schema n rs w xs op)
    (hfields : exprs.mapM (Table.projectedField child.schema) = .ok schema.fields) :
    List.Forall₂ (fun x t => x.Typed w.types ∧ x.type = t) xs schema.types := by
  obtain ⟨hagg, htypes⟩ := types_of_mapM_projectedField hfields
  have hw := Expr.mapM_typeIn_withColumnsAll h.windows.columnsIn hagg htypes h.windows.typedIn
  have hxs := h.resolved
  rw [Expr.resolveAll_eq_mapM] at hxs
  refine forall₂_of_beside (fun e x t hx ht => ?_) (Result.forall₂_of_mapM hxs)
    (Result.forall₂_of_mapM hw)
  obtain ⟨htype, htyped, -⟩ := (Expr.resolve_decides ht).good_of_ok hx
  exact ⟨htyped, htype⟩

theorem map_type (h : Projected child exprs schema n rs w xs op)
    (hfields : exprs.mapM (Table.projectedField child.schema) = .ok schema.fields) :
    xs.map RowExpr.type = schema.types :=
  (map_eq_map_of_forall₂ ((h.typed hfields).imp fun _ _ h => h.2)).trans (List.map_id _)

end OperatorPlan.Projected

namespace Batch

/-- A projection with a type for each expression is laid out by these types. -/
theorem laidOut_of_project {b out : Batch} {xs : List RowExpr} {s : Schema}
    (htypes : xs.map RowExpr.type = s.types) (h : b.project xs s.types = .ok out) :
    out.LaidOut s := by
  have hlength : s.types.length = xs.length := by rw [← htypes, List.length_map]
  obtain ⟨rows, hrows, rfl⟩ := (project_eq_ok_iff hlength).mp h
  refine ⟨rfl, fun row hrow => ?_⟩
  obtain ⟨r, -, hr⟩ := Result.exists_of_mem_mapM hrows row hrow
  rw [RowExpr.evalAll_eq_mapM] at hr
  exact (Result.forall₂_of_mapM hr).length_eq.symm.trans hlength.symm

theorem laidOut_of_ofRows {s : Schema} {rows : List Row} {b : Batch}
    (h : ofRows s.types rows = .ok b) : b.LaidOut s := by
  obtain ⟨hrows, rfl⟩ := ofRows_eq_ok_iff.mp h
  exact ⟨rfl, hrows⟩

/-- Some of the rows, in any order. -/
theorem LaidOut.of_subset {s : Schema} {b : Batch} (h : b.LaidOut s) {rows : List Row}
    (hrows : rows ⊆ b.rows) : LaidOut s ⟨b.types, rows⟩ :=
  ⟨h.types, fun r hr => h.rectangular r (hrows hr)⟩

end Batch

/-- **Results have the layout of their plan**, if the leaves give batches of their schemas. -/
theorem Plan.Executes.laidOut {provider : RowProvider} {p : Plan} {op : OperatorPlan} {b : Batch}
    (h : p.Executes provider op b) (hleaves : p.LeavesGive provider Batch.LaidOut) :
    b.LaidOut p.schema := by
  induction h with
  | scan hb | sqlQuery hb => exact hleaves _ (mem_nodes_self _) _ hb
  | values => exact hleaves _ (mem_nodes_self _)
  | project hc hfields hprojected _ hrun =>
    exact Batch.laidOut_of_project (hprojected.map_type (hc.schema_eq ▸ hfields)) hrun
  | filter _ hfilter _ hrows ih =>
    have hinput := ih (hleaves.of_child List.mem_cons_self)
    rw [← Table.schema_of_filterSchema hfilter] at hinput
    exact hinput.of_subset (RowExpr.keepRows_sublist hrows).subset
  | join _ _ _ _ _ hb | aggregate _ _ _ _ _ hb => exact Batch.laidOut_of_ofRows hb
  | order _ _ _ hrows ih =>
    exact (ih (hleaves.of_child List.mem_cons_self)).of_subset (Row.sort_perm hrows).subset
  | limit _ ih =>
    have hinput := ih (hleaves.of_child List.mem_cons_self)
    exact hinput.of_subset (Batch.slice_rows_sublist _ _ _).subset

end TableQuery
