import Mathlib
import TableQuery.Operator.Run
import TableQuery.Proofs.Operator.Lowering

/-! # Projections that read windows

A projection with windows is lowered to two operators: one that puts the columns of the windows
behind every row, and one that reads them by the names made up for them. `WindowsOver.valuedIn` says
that the name of each window is found at the place of its column, and `Batch.project_eq_ok_iff` what
the second operator gives. `Projected.run_eq_ok_iff` puts both together: a row gets the values that
the expressions have over all rows (`Expr.valuesOver`). `Built.run_project_eq_valuesOver` says so of
every projection in a table that calls can build. -/

namespace TableQuery

/-! ### Rows with further columns -/

namespace Schema

variable {s w : Schema} {extra : List (String × DataType)} {name : String} {t : DataType}
  {row values : Row}

theorem valueAt_of_getElem? {i : Nat} (h : s.fields[i]? = some (name, t)) (row : Row) :
    s.valueAt row name = row.getD i .null := by
  rw [valueAt, (index?_type?_iff.mpr h).1]

/-- A column is read where it was, whatever stands behind a row that has a value for it. -/
theorem valueAt_append (hw : w.fields = s.fields ++ extra) (hrow : s.fields.length ≤ row.length)
    (h : s.typeOf name = .ok t) : w.valueAt (row ++ values) name = s.valueAt row name := by
  obtain ⟨i, hi⟩ := List.getElem?_of_mem (type?_eq_some_iff.mp (typeOf_eq_ok_iff.mp h))
  have hlt : i < s.fields.length := (List.getElem?_eq_some_iff.mp hi).1
  have hwi : w.fields[i]? = some (name, t) := by rw [hw, List.getElem?_append_left hlt, hi]
  rw [valueAt_of_getElem? hi, valueAt_of_getElem? hwi, List.getD_append _ _ _ _ (hlt.trans_le hrow)]

/-- A further column is read behind the row. -/
theorem valueAt_append_extra (hw : w.fields = s.fields ++ extra)
    (hrow : row.length = s.fields.length) {j : Nat} (h : extra[j]? = some (name, t)) :
    w.valueAt (row ++ values) name = values.getD j .null := by
  have hwj : w.fields[s.fields.length + j]? = some (name, t) := by
    rw [hw, List.getElem?_append_right (Nat.le_add_right _ _), Nat.add_sub_cancel_left, h]
  rw [valueAt_of_getElem? hwj, List.getD_append_right _ _ _ _ (hrow ▸ Nat.le_add_right _ _), hrow,
    Nat.add_sub_cancel_left]

end Schema

/-! ### Columns of windows -/

namespace RowWindow

/-- The columns of windows over rows. -/
def columns (ws : List RowWindow) (rows : List Row) : Result (List Column) :=
  ws.mapM fun w => (w.values rows).map fun values => ⟨w.type, values⟩

theorem values_nil (w : RowWindow) : w.values [] = .ok [] := rfl

variable {ws : List RowWindow} {rows : List Row} {columns : List Column}

/-- Every window has its values in the column at its place. -/
theorem columns_getElem? (h : RowWindow.columns ws rows = .ok columns) {j : Nat} {w : RowWindow}
    (hw : ws[j]? = some w) :
    ∃ values, w.values rows = .ok values ∧ columns[j]? = some ⟨w.type, values⟩ := by
  obtain ⟨column, hcolumn, hmap⟩ := exists_of_forall₂_getElem? (Result.forall₂_of_mapM h) hw
  obtain ⟨values, hvalues, rfl⟩ := Result.map_eq_ok_iff.mp hmap
  exact ⟨values, hvalues, hcolumn⟩

end RowWindow

namespace OperatorPlan

namespace WindowsOver

variable {s w : Schema} {n : Nat} {ws : List WindowCall} {rs : List RowWindow} {rows : List Row}

theorem getElem? (h : WindowsOver s n ws rs w) {j : Nat} {c : WindowCall} (hc : ws[j]? = some c) :
    ∃ r, rs[j]? = some r ∧ (c.named 0).resolve (Scope.single s) = .ok r := by
  have hname : (WindowCall.nameFrom n ws)[j]? = some (c.named (n + j)) := by
    simp [WindowCall.nameFrom, hc]
  obtain ⟨r, hr, hresolve⟩ :=
    exists_of_forall₂_getElem? (Result.forall₂_of_mapM h.resolved) hname
  exact ⟨r, hr, hresolve⟩

/-- **A row with the columns of the windows behind it** has their values in the columns that have
their names. -/
theorem valuedIn (h : WindowsOver s n ws rs w) {columns : List Column}
    (hcolumns : RowWindow.columns rs rows = .ok columns) {p : Row × Nat}
    (hrow : p.1.length = s.fields.length) :
    Expr.ValuedIn s w rows p (p.1 ++ Batch.rowAt columns p.2) n ws := by
  rintro ⟨c, k⟩ hmem
  obtain ⟨hle, hc⟩ := List.mk_mem_zipIdx_iff_le_and_getElem?_sub.mp hmem
  obtain ⟨r, hr, hresolve⟩ := h.getElem? hc
  obtain ⟨values, hvalues, hcolumn⟩ := RowWindow.columns_getElem? hcolumns hr
  have hfield := windowFields_getElem? (n := n) hc hr
  rw [Nat.add_sub_cancel' hle] at hfield
  rw [Schema.valueAt_append_extra h.fields hrow hfield, WindowCall.valueOver, hresolve,
    Result.ok_bind, hvalues, Batch.rowAt, List.getD_eq_getElem?_getD, List.getElem?_map, hcolumn]
  rfl

/-- The columns of the input are read as before, if the row has a value for each of them or there
are no windows. -/
theorem valueAt_withColumns (h : WindowsOver s n ws rs w) {columns : List Column}
    (hcolumns : RowWindow.columns rs rows = .ok columns) {row : Row}
    (hrow : ws ≠ [] → s.fields.length ≤ row.length) {name : String} {t : DataType}
    (ht : s.typeOf name = .ok t) (i : Nat) :
    w.valueAt (row ++ Batch.rowAt columns i) name = s.valueAt row name := by
  by_cases hnone : ws = []
  · subst hnone
    obtain rfl : rs = [] := List.forall₂_nil_left_iff.mp h.types
    have hnil : RowWindow.columns [] rows = .ok [] := rfl
    obtain rfl : columns = [] := Except.ok.inj (hcolumns.symm.trans hnil)
    have hfields : w.fields = s.fields := h.fields.trans (List.append_nil _)
    rw [Schema.valueAt, Schema.valueAt, Schema.index?, Schema.index?, Schema.names, Schema.names,
      hfields, Batch.rowAt, List.map_nil, List.append_nil]
  · exact Schema.valueAt_append h.fields (hrow hnone) ht

/-- Windows that have values have columns. -/
theorem exists_columns (h : WindowsOver s n ws rs w)
    (hvalues : rows ≠ [] → ∃ i, ∀ c ∈ ws, ∃ u, c.valueOver s rows i = .ok u) :
    ∃ columns, RowWindow.columns rs rows = .ok columns := by
  refine Result.exists_mapM_eq_ok fun r hr => ?_
  suffices hr : ∃ values, r.values rows = .ok values by
    obtain ⟨values, hv⟩ := hr
    exact ⟨⟨r.type, values⟩, by rw [hv]; rfl⟩
  by_cases hrows : rows = []
  · exact ⟨[], hrows ▸ r.values_nil⟩
  · obtain ⟨i, hi⟩ := hvalues hrows
    obtain ⟨j, hj⟩ := List.getElem?_of_mem hr
    have hlt : j < ws.length := h.types.length_eq ▸ (List.getElem?_eq_some_iff.mp hj).1
    obtain ⟨r', hr', hresolve⟩ := h.getElem? (List.getElem?_eq_getElem hlt)
    rw [hj] at hr'
    cases hr'
    obtain ⟨u, hu⟩ := hi _ (List.getElem_mem hlt)
    rw [WindowCall.valueOver, hresolve, Result.ok_bind] at hu
    obtain ⟨values, hv, -⟩ := Result.bind_eq_ok_iff.mp hu
    exact ⟨values, hv⟩

end WindowsOver

/-! ### Running a projection -/

theorem run_unary (provider : RowProvider) (op : Operator) (schema : Schema)
    (child : OperatorPlan) : (node op schema [child]).run provider =
      child.run provider >>= fun b => op.run provider schema.types [b] := by
  rw [run, runAll, runAll]
  cases child.run provider <;> rfl

end OperatorPlan

namespace Batch

theorem withColumns_nil (b : Batch) : b.withColumns [] = b := by
  have hrows : b.rows.zipIdx.map (fun p => p.1 ++ rowAt [] p.2) = b.rows := by
    simp [rowAt]
  rw [withColumns, hrows]
  simp

/-- **A projection with a type for each expression** puts their values on every row. -/
theorem project_eq_ok_iff {b out : Batch} {xs : List RowExpr} {types : List DataType}
    (h : types.length = xs.length) : b.project xs types = .ok out ↔
      ∃ rows, (b.rows.mapM fun r => RowExpr.evalAll r xs) = .ok rows ∧ out = ⟨types, rows⟩ := by
  simp only [project, Result.bind_eq_ok_iff, RowExpr.evalAll_eq_mapM]
  refine exists_congr fun rows => and_congr_right fun hrows => ?_
  have hwidth : ∀ row ∈ rows, row.length = xs.length := by
    intro row hrow
    obtain ⟨r, -, hr⟩ := Result.exists_of_mem_mapM hrows row hrow
    exact (Result.forall₂_of_mapM hr).length_eq.symm
  have hcount : rows.length = b.numRows := (Result.forall₂_of_mapM hrows).length_eq.symm
  suffices hout : (if xs.isEmpty then return ofCount b.numRows
      else return if (types.take xs.length).isEmpty then empty
        else ⟨types.take xs.length, rows.map (·.take (types.take xs.length).length)⟩ :
        Result Batch) = .ok ⟨types, rows⟩ by
    rw [hout, Except.ok.injEq, eq_comm]
  cases xs with
  | nil =>
    have htypes : types = [] := List.eq_nil_of_length_eq_zero h
    have hempty : rows = List.replicate b.numRows [] := List.eq_replicate_iff.mpr
      ⟨hcount, fun row hrow => List.eq_nil_of_length_eq_zero (hwidth row hrow)⟩
    rw [htypes, hempty]
    rfl
  | cons x xs =>
    have htake : types.take (x :: xs).length = types := h ▸ List.take_length
    have hsome : types.isEmpty = false := by
      cases types with
      | nil => cases h
      | cons _ _ => rfl
    have hrows : rows.map (·.take types.length) = rows :=
      (List.map_congr_left fun row hrow => List.take_of_length_le
        ((hwidth row hrow).trans h.symm).le).trans (List.map_id rows)
    rw [htake, hsome, hrows]
    rfl

end Batch

namespace OperatorPlan

namespace Projected

variable {child p : OperatorPlan} {exprs : List Expr} {schema w : Schema} {n : Nat}
  {rs : List RowWindow} {xs : List RowExpr} {provider : RowProvider} {b : Batch}

theorem run_eq (h : Projected child exprs schema n rs w xs p) (hb : child.run provider = .ok b) :
    p.run provider = RowWindow.columns rs b.rows >>= fun columns =>
      (b.withColumns columns).project xs schema.types := by
  rw [h.eq, run_unary]
  split
  · rename_i hnone
    have hrs : rs = [] := by
      have htypes := h.windows.types
      rw [hnone] at htypes
      cases htypes
      rfl
    have hcolumns : RowWindow.columns [] b.rows = .ok [] := rfl
    rw [hb, hrs, hcolumns, Result.ok_bind, Result.ok_bind, Batch.withColumns_nil]
    rfl
  · rw [run_unary, hb]
    show (RowWindow.columns rs b.rows >>= _) >>= _ = _
    cases RowWindow.columns rs b.rows <;> rfl

/-- **A projection with its windows taken out** gives each row the values of the expressions over
all rows, and succeeds exactly if they have values. -/
theorem run_eq_ok_iff (h : Projected child exprs schema n rs w xs p)
    (hfields : exprs.mapM (Table.projectedField child.schema) = .ok schema.fields)
    (hb : child.run provider = .ok b) (hrows : ∀ r ∈ b.rows, r.length = child.schema.fields.length)
    {out : Batch} : p.run provider = .ok out ↔
      ∃ rows, (b.rows.zipIdx.mapM fun q => Expr.valuesOver child.schema b.rows q exprs) = .ok rows ∧
        out = ⟨schema.types, rows⟩ := by
  obtain ⟨hagg, htypes⟩ := types_of_mapM_projectedField hfields
  obtain ⟨ys, hys, hytypes, heval⟩ :=
    Expr.resolveAll_withColumnsAll h.windows.columnsIn hagg htypes h.windows.typedIn
  obtain rfl : ys = xs := Except.ok.inj (hys.symm.trans h.resolved)
  have hlength : schema.types.length = ys.length := by
    rw [Schema.types, ← hytypes, List.length_map]
  have hvalues : ∀ columns, RowWindow.columns rs b.rows = .ok columns →
      ((b.withColumns columns).rows.mapM fun r => RowExpr.evalAll r ys) =
        b.rows.zipIdx.mapM fun q => Expr.valuesOver child.schema b.rows q exprs := by
    intro columns hcolumns
    rw [Batch.withColumns, List.mapM_map]
    refine Result.mapM_congr fun q hq => ?_
    have hrow := hrows q.1 (List.fst_mem_of_mem_zipIdx hq)
    exact heval b.rows q _ (fun _ _ => Schema.valueAt_append h.windows.fields hrow.ge)
      (h.windows.valuedIn hcolumns hrow)
  rw [h.run_eq hb, Result.bind_eq_ok_iff]
  simp only [Batch.project_eq_ok_iff hlength]
  constructor
  · rintro ⟨columns, hcolumns, rows, hrun, rfl⟩
    exact ⟨rows, (hvalues columns hcolumns).symm.trans hrun, rfl⟩
  · rintro ⟨rows, hrun, rfl⟩
    -- On no rows no window fails; otherwise the values on one row show that all windows have
    -- theirs.
    have hwindows : b.rows ≠ [] → ∃ i, ∀ c ∈ Expr.windowsOfAll exprs,
        ∃ u, c.valueOver child.schema b.rows i = .ok u := by
      intro hsome
      obtain ⟨r, hr⟩ := List.exists_mem_of_ne_nil _ hsome
      obtain ⟨i, hi⟩ := List.getElem?_of_mem hr
      obtain ⟨vs, -, hvs⟩ := Result.exists_of_mapM hrun (List.mk_mem_zipIdx_iff_getElem?.mpr hi)
      exact ⟨i, Expr.exists_valueOver_of_mem_windowsOfAll hvs⟩
    obtain ⟨columns, hcolumns⟩ := h.windows.exists_columns hwindows
    exact ⟨columns, hcolumns, rows, (hvalues columns hcolumns).trans hrun, rfl⟩

end Projected

end OperatorPlan

/-! ### Projections of tables -/

namespace Table

open OperatorPlan (lower projectNode projectNode_decides lower_decides)

/-- **Taking windows out keeps the meaning of projections**: where a projection of a table is
lowered, its operators stand on top of what is lowered for its input. On top of any input with the
same columns they give each row, in the order of the rows, the values of the expressions in which
every window stands for what it gives this row over all rows of the input, and they fail only where
there are no such values. -/
theorem Built.run_project_eq_valuesOver {next ref : TableRef} {t : Table} (h : Built next t)
    {exprs : List Expr} {schema : Schema} {c : Plan}
    (hnode : Plan.node (.project exprs) ref schema [c] ∈ t.root.nodes) {n m : Nat}
    {plan : OperatorPlan}
    (hplan : lower (.node (.project exprs) ref schema [c]) n = .ok (plan, m)) :
    ∃ child k, lower c n = .ok (child, k) ∧ child.schema = c.schema ∧
      projectNode child exprs schema k = .ok (plan, m) ∧
      ∀ input : OperatorPlan, input.schema = c.schema →
        ∃ p, projectNode input exprs schema k = .ok (p, m) ∧
          ∀ provider b, input.run provider = .ok b → b.types = c.schema.types → b.Rectangular →
            ∀ out, p.run provider = .ok out ↔ ∃ rows,
              (b.rows.zipIdx.mapM fun q => Expr.valuesOver c.schema b.rows q exprs) = .ok rows ∧
                out = ⟨schema.types, rows⟩ := by
  obtain ⟨hc, hfields⟩ : c.Checked ∧ exprs.mapM (projectedField c.schema) = .ok schema.fields := by
    cases h.sound.checked.of_mem_nodes _ hnode with
    | project hc hfields => exact ⟨hc, hfields⟩
  have hsteps : lower (.node (.project exprs) ref schema [c]) n =
      lower c n >>= fun q => projectNode q.1 exprs schema q.2 := rfl
  obtain ⟨⟨child, k⟩, hchild, hproject⟩ := Result.bind_eq_ok_iff.mp (hsteps.symm.trans hplan)
  have hschema : child.schema = c.schema := ((lower_decides hc n).good_of_ok hchild).1
  refine ⟨child, k, hchild, hschema, hproject, fun input hinput => ?_⟩
  have hdecides := fun (input : OperatorPlan) (hinput : input.schema = c.schema) =>
    projectNode_decides k (hinput ▸ hfields : exprs.mapM (projectedField input.schema) = _)
  -- Whether a projection is lowered hangs on the schema of its input alone.
  have hcond := (hdecides child hschema).isOk_iff.mp ⟨_, hproject⟩
  rw [hschema, ← hinput] at hcond
  obtain ⟨⟨p, m'⟩, hp, hm', rs, w, xs, hprojected⟩ := (hdecides input hinput).ok hcond
  obtain rfl : m' = m := hm'.trans ((hdecides child hschema).good_of_ok hproject).1.symm
  refine ⟨p, hp, fun provider b hb htypes hrect out => ?_⟩
  have hrows : ∀ r ∈ b.rows, r.length = input.schema.fields.length := by
    intro r hr
    rw [hrect r hr, htypes, hinput, Schema.types, List.length_map]
  rw [← hinput] at hfields ⊢
  exact hprojected.run_eq_ok_iff hfields hb hrows

/-- A place that is read twice, next to a sum and to the column that both read. -/
theorem Built.run_project_place_twice :
    let n : Int → Scalar := fun v => .int .int64 (Bounded.clamp _ _ (by decide) v)
    let place : Expr := .window .rowNumber none [] [⟨.col "a", false, false⟩]
    let total : Expr := .window (.aggregate .sum) (some (.col "a")) [] []
    let exprs : List Expr := [.aliased "x" (.arith .add total place), .col "a", .aliased "y" place]
    let s : Schema := ⟨[("a", .int64)], by decide⟩
    let schema : Schema :=
      ⟨[("x", .int64), ("a", .int64), ("y", DataType.int64.nonNull)], by decide⟩
    let scanned : Plan := .node (.scan "t") ⟨0⟩ s []
    let node : Plan := .node (.project exprs) ⟨1⟩ schema [scanned]
    let b : Batch := ⟨[.int64], [[n 2], [n 1], [n 3]]⟩
    Built ⟨2⟩ ⟨node, .standard⟩ ∧ (∃ plan, lower node 0 = .ok (plan, 3)) ∧
      ∃ p, projectNode (.node (.values b) s []) exprs schema 0 = .ok (p, 3) ∧
        p.run ⟨fun _ => .ok .empty, fun _ => .ok .empty⟩ =
          .ok ⟨schema.types, [[n 7, n 2, n 1], [n 6, n 1, n 0], [n 8, n 3, n 2]]⟩ := by
  intro n place total exprs s schema scanned node b
  have hscan : (Table.scan "t" s).Gives ⟨0⟩ ⟨scanned, .standard⟩ ⟨1⟩ := rfl
  have hselect : (Table.select ⟨scanned, .standard⟩ exprs).Gives ⟨1⟩ ⟨node, .standard⟩ ⟨2⟩ := rfl
  have hbuilt : Built ⟨2⟩ ⟨node, .standard⟩ := .select (.scan hscan) hselect
  obtain ⟨plan, hplan⟩ : ∃ plan, lower node 0 = .ok (plan, 3) := ⟨_, rfl⟩
  obtain ⟨child, k, hchild, -, -, hrun⟩ :=
    hbuilt.run_project_eq_valuesOver (List.mem_cons_self) hplan
  cases hchild
  obtain ⟨p, hp, hrun⟩ := hrun (.node (.values b) s []) rfl
  refine ⟨hbuilt, ⟨plan, hplan⟩, p, hp, (hrun _ b rfl rfl ?_ _).mpr ⟨_, ?_, rfl⟩⟩
  · simp [b, Batch.Rectangular]
  · cbv

end Table

end TableQuery
