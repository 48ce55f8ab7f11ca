import TableQuery.Proofs.Expr.Columns
import TableQuery.Proofs.Operator.Layout
import TableQuery.Proofs.Scalar.Order

/-! # Rows that stay sorted

A sort puts rows in the order of its keys, if these order the values at hand
(`Row.sortedBy_of_sort`). Filters and limits keep rows in their order, and so does a projection; and
if it passes on every column that the keys read, they have the same values on its rows as on those
of its input (`Projected.forall₂_passes`). A stack of such nodes over a sort is `Plan.KeepsOrder`.
By induction on the stack, its rows are sorted by the keys as they are resolved over its own columns
(`KeepsOrder.sortedBy`).

One thing may come between a projection and the columns of its input. Its windows are put behind the
rows, so a row with fewer values than columns reads a window where a column should be null. Rows of
narrower tables than a plan was made for are such rows; `Plan.WindowsFilled` excludes them. -/

namespace TableQuery

/-! ### Sorted rows -/

/-- **Rows in the order of sort keys**: of any two, the keys have values on both, and those of the
earlier one do not come after those of the later. -/
def Row.SortedBy (keys : List (SortKey RowExpr)) (rows : List Row) : Prop :=
  rows.Pairwise fun r s => ∃ vs us, SortKey.evalAll keys r = .ok vs ∧
    SortKey.evalAll keys s = .ok us ∧ SortKey.orderAll keys vs us ≠ .gt

/-- The values of a key on some rows are nulls and values of one family. -/
def SortKey.InFamily (k : SortKey RowExpr) (rows : List Row) : Prop :=
  ∃ f, ∀ r ∈ rows, k.expr.valueOn r = .null ∨ (k.expr.valueOn r).family? = some f

namespace Row

variable {keys xs ys : List (SortKey RowExpr)} {rows out : List Row}

/-- **A sort** puts rows in the order of its keys. -/
theorem sortedBy_of_sort (hfamilies : ∀ k ∈ keys, k.InFamily rows)
    (h : Row.sort keys rows = .ok out) : SortedBy keys out := by
  obtain ⟨hvalues, rfl⟩ := sort_eq_ok_iff.mp h
  have hordered : OrderedOn (· ∈ rows) (SortKey.orderRows keys) :=
    SortKey.orderedOn_orderAll hfamilies
  have heval : ∀ r ∈ rows, SortKey.evalAll keys r = .ok (SortKey.valuesOn keys r) :=
    fun r hr => SortKey.evalAll_eq_ok_iff.mpr ⟨hvalues r hr, rfl⟩
  refine (hordered.pairwise_isLE_mergeSort fun _ => id).imp_of_mem fun hr hs hle => ?_
  exact ⟨_, _, heval _ (List.mem_mergeSort.mp hr), heval _ (List.mem_mergeSort.mp hs),
    Ordering.ne_gt_iff_isLE.mpr hle⟩

theorem SortedBy.sublist (h : SortedBy keys rows) (hout : out.Sublist rows) : SortedBy keys out :=
  List.Pairwise.sublist hout h

/-- Rows that are computed one by one stay sorted under keys of the same order that have the same
values on them. -/
theorem SortedBy.congr (h : SortedBy xs rows)
    (horder : ∀ vs us, SortKey.orderAll ys vs us = SortKey.orderAll xs vs us)
    (hrows : List.Forall₂ (fun r q => SortKey.evalAll ys q = SortKey.evalAll xs r) rows out) :
    SortedBy ys out := by
  have hvalues : out.map (SortKey.evalAll ys) = rows.map (SortKey.evalAll xs) :=
    map_eq_map_of_forall₂ (hrows.flip.imp fun _ _ h => h)
  unfold SortedBy at h ⊢
  rw [← List.pairwise_map (f := SortKey.evalAll xs) (R := fun x y : Result (List Scalar) =>
    ∃ vs us, x = .ok vs ∧ y = .ok us ∧ SortKey.orderAll xs vs us ≠ .gt), ← hvalues,
    List.pairwise_map] at h
  simpa only [horder] using h

end Row

/-! ### The sort below -/

namespace OperatorPlan

/-- The keys and the input of the sort from which a tree has the order of its rows. -/
def sort? : OperatorPlan → Option (List (SortKey RowExpr) × OperatorPlan)
  | .node (.sort keys) _ [child] => some (keys, child)
  | .node (.project _) _ [child] => sort? child
  | .node (.window _) _ [child] => sort? child
  | .node (.filter _) _ [child] => sort? child
  | .node (.limit _ _) _ [child] => sort? child
  | _ => none

/-- **The sort from which a tree has its order sorts families**: under each of its keys the values
of its input are nulls and values of one family. -/
def SortsFamilies (provider : RowProvider) (p : OperatorPlan) : Prop :=
  ∀ keys child input, p.sort? = some (keys, child) → child.run provider = .ok input →
    ∀ k ∈ keys, k.InFamily input.rows

theorem sortsFamilies_of_sort? {provider : RowProvider} {p child : OperatorPlan}
    {keys : List (SortKey RowExpr)} {input : Batch} (hsort : p.sort? = some (keys, child))
    (hinput : child.run provider = .ok input) (h : ∀ k ∈ keys, k.InFamily input.rows) :
    p.SortsFamilies provider := by
  intro keys' child' input' hsort' hinput'
  obtain ⟨rfl, rfl⟩ := Prod.mk.inj (Option.some.inj (hsort.symm.trans hsort'))
  obtain rfl : input = input' := Except.ok.inj (hinput.symm.trans hinput')
  exact h

theorem Projected.sortsFamilies {child op : OperatorPlan} {exprs : List Expr} {schema w : Schema}
    {n : Nat} {rs : List RowWindow} {xs : List RowExpr} {provider : RowProvider}
    (h : Projected child exprs schema n rs w xs op) (hop : op.SortsFamilies provider) :
    child.SortsFamilies provider := by
  have hsort : op.sort? = child.sort? := by
    rw [h.eq, sort?]
    split <;> rfl
  unfold SortsFamilies at hop ⊢
  rwa [hsort] at hop

end OperatorPlan

/-! ### Columns that are passed on -/

namespace Expr

/-- **A projection passes on a column** of its input under its own name. -/
def Passes (exprs : List Expr) (name : String) : Prop :=
  ∃ e ∈ exprs, ∃ table, e.unaliased = .column table name ∧ e.outputName = name

theorem unaliased_withColumns (n : Nat) :
    ∀ e : Expr, (e.withColumns n).unaliased = e.unaliased.withColumns n
  | .aliased _ e => unaliased_withColumns n e
  | .column _ _ | .literal _ | .arith _ _ _ | .compare _ _ _ | .conj _ _ | .unary _ _
  | .aggregate _ none | .aggregate _ (some _) | .window _ _ _ _ => rfl

theorem forall₂_withColumnsAll : ∀ (n : Nat) (es : List Expr),
    List.Forall₂ (fun e e' => ∃ k, e' = e.withColumns k) es (withColumnsAll n es)
  | _, [] => .nil
  | n, e :: r => .cons ⟨n, rfl⟩ (forall₂_withColumnsAll (n + e.windows.length) r)

namespace Passes

variable {exprs : List Expr} {s schema : Schema} {name : String}

/-- A column that is passed on has its type at the place of the expression that reads it. -/
theorem exists_place (h : Passes exprs name)
    (hfields : exprs.mapM (Table.projectedField s) = .ok schema.fields) :
    ∃ (j : Nat) (e : Expr) (table : Option TableRef) (t : DataType), exprs[j]? = some e ∧
      e.unaliased = .column table name ∧ s.typeOf name = .ok t ∧
      schema.fields[j]? = some (name, t) := by
  obtain ⟨e, he, table, hcolumn, rfl⟩ := h
  obtain ⟨j, hj⟩ := List.getElem?_of_mem he
  obtain ⟨field, hfield, hprojected⟩ :=
    exists_of_forall₂_getElem? (Result.forall₂_of_mapM hfields) hj
  unfold Table.projectedField at hprojected
  split at hprojected
  · cases hprojected
  · obtain ⟨t, ht, rfl⟩ := Result.map_eq_ok_iff.mp hprojected
    rw [← typeIn_unaliased, hcolumn] at ht
    exact ⟨j, e, table, t, hj, hcolumn, ht, hfield⟩

theorem typeOf_eq (h : Passes exprs name)
    (hfields : exprs.mapM (Table.projectedField s) = .ok schema.fields) :
    schema.typeOf name = s.typeOf name := by
  obtain ⟨j, _, _, t, -, -, ht, hfield⟩ := h.exists_place hfields
  rw [ht, Schema.typeOf_eq_ok_iff, Schema.type?_eq_some_iff]
  exact List.mem_of_getElem? hfield

end Passes

end Expr

namespace OperatorPlan.Projected

variable {child op : OperatorPlan} {exprs : List Expr} {schema w : Schema} {n : Nat}
  {rs : List RowWindow} {xs : List RowExpr}

/-- An expression that is a column reads the column of its name behind the windows. -/
theorem eval_of_unaliased (h : Projected child exprs schema n rs w xs op) {j : Nat} {e : Expr}
    {table : Option TableRef} {name : String} (hj : exprs[j]? = some e)
    (hcolumn : e.unaliased = .column table name) :
    ∃ x, xs[j]? = some x ∧ ∀ row, x.eval row = .ok (w.valueAt row name) := by
  obtain ⟨e', he', k, rfl⟩ := exists_of_forall₂_getElem? (Expr.forall₂_withColumnsAll n exprs) hj
  have hxs := h.resolved
  rw [Expr.resolveAll_eq_mapM] at hxs
  obtain ⟨x, hx, hresolve⟩ := exists_of_forall₂_getElem? (Result.forall₂_of_mapM hxs) he'
  rw [Expr.resolve_eq_resolveWith, ← Expr.resolveWith_unaliased, Expr.unaliased_withColumns,
    hcolumn, ← Expr.resolve_eq_resolveWith] at hresolve
  exact ⟨x, hx, (Expr.typeOf_of_resolve_column hresolve).2⟩

/-- **The columns that are passed on** have the same values on the rows of a projection as on those
of its input, if these have a value for every column or there are no windows. -/
theorem forall₂_passes (h : Projected child exprs schema n rs w xs op)
    (hfields : exprs.mapM (Table.projectedField child.schema) = .ok schema.fields)
    {input b : Batch} {columns : List Column}
    (hcolumns : RowWindow.columns rs input.rows = .ok columns)
    (hrun : (input.withColumns columns).project xs schema.types = .ok b)
    (hfilled : Expr.windowsOfAll exprs ≠ [] →
      ∀ r ∈ input.rows, child.schema.fields.length ≤ r.length) :
    List.Forall₂ (fun r q => ∀ name, Expr.Passes exprs name →
      schema.valueAt q name = child.schema.valueAt r name) input.rows b.rows := by
  have hlength : schema.types.length = xs.length := by rw [← h.map_type hfields, List.length_map]
  obtain ⟨rows, hrows, rfl⟩ := (Batch.project_eq_ok_iff hlength).mp hrun
  rw [Batch.withColumns, List.mapM_map] at hrows
  have hplaced := (List.forall₂_and_left _ _).mpr
    ⟨fun p hp => List.fst_mem_of_mem_zipIdx hp, Result.forall₂_of_mapM hrows⟩
  rw [← List.zipIdx_map_fst 0 input.rows, List.forall₂_map_left_iff]
  refine hplaced.imp fun p q hp name hpasses => ?_
  have hmem := hp.1
  have heval : RowExpr.evalAll (p.1 ++ Batch.rowAt columns p.2) xs = .ok q := hp.2
  obtain ⟨j, e, table, t, hj, hcolumn, ht, hfield⟩ := hpasses.exists_place hfields
  obtain ⟨x, hx, hread⟩ := h.eval_of_unaliased hj hcolumn
  rw [RowExpr.evalAll_eq_mapM] at heval
  obtain ⟨v, hv, hxv⟩ := exists_of_forall₂_getElem? (Result.forall₂_of_mapM heval) hx
  rw [hread, h.windows.valueAt_withColumns hcolumns (fun hsome => hfilled hsome _ hmem) ht] at hxv
  rw [Schema.valueAt_of_getElem? hfield, List.getD_eq_getElem?_getD, hv]
  exact (Except.ok.inj hxv).symm

end OperatorPlan.Projected

theorem Table.checkSortKey_congr {s w : Schema} {k : SortKey Expr}
    (h : ∀ c ∈ k.expr.columns, w.typeOf c.name = s.typeOf c.name) :
    checkSortKey w k = checkSortKey s k := by
  rw [checkSortKey, checkSortKey, Expr.typeIn_congr h]

/-! ### Rows with a value for every column -/

namespace Plan

/-- **The rows of a plan have a value for every column**, if they are those of a scan or a query.
Filters, orders and limits pass on rows as they are, and any other node makes its own. -/
def FillsRows (provider : RowProvider) : Plan → Prop
  | .node (.scan name) _ schema _ =>
    ∀ b, provider.scan name = .ok b → ∀ r ∈ b.rows, schema.fields.length ≤ r.length
  | .node (.sqlQuery query) _ schema _ =>
    ∀ b, provider.query query = .ok b → ∀ r ∈ b.rows, schema.fields.length ≤ r.length
  | .node (.filter _) _ _ [c] => FillsRows provider c
  | .node (.order _) _ _ [c] => FillsRows provider c
  | .node (.limit _ _) _ _ [c] => FillsRows provider c
  | _ => True

/-- **Windows stand behind full rows**: where a projection that a plan has its order through
computes a window, the rows that it reads have a value for every column. -/
def WindowsFilled (provider : RowProvider) : Plan → Prop
  | .node (.project exprs) _ _ [c] =>
    (Expr.windowsOfAll exprs ≠ [] → c.FillsRows provider) ∧ WindowsFilled provider c
  | .node (.filter _) _ _ [c] => WindowsFilled provider c
  | .node (.limit _ _) _ _ [c] => WindowsFilled provider c
  | _ => True

variable {provider : RowProvider} {p : Plan} {op : OperatorPlan} {b : Batch}

theorem Executes.length_le (h : p.Executes provider op b) (hheld : p.Holds Batch.LaidOut)
    (hfills : p.FillsRows provider) : ∀ r ∈ b.rows, p.schema.fields.length ≤ r.length := by
  induction h with
  | scan hb | sqlQuery hb => exact hfills _ hb
  | values => exact fun r hr => ((hheld _ (mem_nodes_self _) _ rfl).length_eq hr).ge
  | project hc hfields hprojected _ hrun =>
    have hlaidOut := Batch.laidOut_of_project (hprojected.map_type (hc.schema_eq ▸ hfields)) hrun
    exact fun r hr => (hlaidOut.length_eq hr).ge
  | filter _ hfilter _ hrows ih =>
    rw [schema, Table.schema_of_filterSchema hfilter]
    exact fun r hr => ih (hheld.of_child List.mem_cons_self) hfills r
      ((RowExpr.keepRows_sublist hrows).subset hr)
  | join _ _ _ _ _ hb | aggregate _ _ _ _ _ hb =>
    exact fun r hr => ((Batch.laidOut_of_ofRows hb).length_eq hr).ge
  | order _ _ _ hrows ih =>
    exact fun r hr => ih (hheld.of_child List.mem_cons_self) hfills r
      ((Row.sort_perm hrows).subset hr)
  | limit _ ih =>
    exact fun r hr => ih (hheld.of_child List.mem_cons_self) hfills r
      ((Batch.slice_rows_sublist _ _ _).subset hr)

/-! ### Stacks over a sort -/

/-- **A stack that keeps the order of some keys**: a sort by the keys, and over it filters, limits
and projections that pass on every column that the keys read. -/
inductive KeepsOrder (keys : List (SortKey Expr)) : Plan → Prop
  | order {ref : TableRef} {schema : Schema} {c : Plan} :
      KeepsOrder keys (.node (.order keys) ref schema [c])
  | filter {predicate : Expr} {ref : TableRef} {schema : Schema} {c : Plan} :
      KeepsOrder keys c → KeepsOrder keys (.node (.filter predicate) ref schema [c])
  | limit {n : Option Nat} {offset : Nat} {ref : TableRef} {schema : Schema} {c : Plan} :
      KeepsOrder keys c → KeepsOrder keys (.node (.limit n offset) ref schema [c])
  | project {exprs : List Expr} {ref : TableRef} {schema : Schema} {c : Plan} :
      KeepsOrder keys c → (∀ k ∈ keys, ∀ col ∈ k.expr.columns, Expr.Passes exprs col.name) →
      KeepsOrder keys (.node (.project exprs) ref schema [c])

variable {keys : List (SortKey Expr)}

/-- **The rows of such a stack are sorted** by the keys over its columns, if the sort orders
families and windows stand behind full rows. -/
theorem KeepsOrder.sortedBy (hkeeps : p.KeepsOrder keys) (h : p.Executes provider op b)
    (hheld : p.Holds Batch.LaidOut) (hwindows : p.WindowsFilled provider)
    (hfamilies : op.SortsFamilies provider) :
    ∃ xs, SortKey.resolveAll (Scope.single p.schema) keys = .ok xs ∧ Row.SortedBy xs b.rows := by
  induction hkeeps generalizing op b with
  | order =>
    cases h with
    | order hc _ hresolve hrows =>
      exact ⟨_, hresolve, Row.sortedBy_of_sort (hfamilies _ _ _ rfl hc.run_eq) hrows⟩
  | filter _ ih =>
    cases h with
    | filter hc hfilter _ hrows =>
      obtain ⟨xs, hxs, hsorted⟩ := ih hc (hheld.of_child List.mem_cons_self) hwindows hfamilies
      rw [schema, Table.schema_of_filterSchema hfilter]
      exact ⟨xs, hxs, hsorted.sublist (RowExpr.keepRows_sublist hrows)⟩
  | limit _ ih =>
    cases h with
    | limit hc =>
      obtain ⟨xs, hxs, hsorted⟩ := ih hc (hheld.of_child List.mem_cons_self) hwindows hfamilies
      exact ⟨xs, hxs, hsorted.sublist (Batch.slice_rows_sublist _ _ _)⟩
  | project _ hpasses ih =>
    cases h with
    | project hc hfields hprojected hcolumns hrun =>
      have hheld' := hheld.of_child List.mem_cons_self
      obtain ⟨xs, hxs, hsorted⟩ := ih hc hheld' hwindows.2 (hprojected.sortsFamilies hfamilies)
      rw [← hc.schema_eq] at hfields hxs
      have hrows := hprojected.forall₂_passes hfields hcolumns hrun fun hsome =>
        hc.schema_eq ▸ hc.length_le hheld' (hwindows.1 hsome)
      obtain ⟨ys, hys, horder, hvalues⟩ := SortKey.resolveAll_congr (fun k hk col hcol =>
        (hpasses k hk col hcol).typeOf_eq hfields) hxs
      refine ⟨ys, hys, hsorted.congr horder (hrows.imp fun r q hrow => ?_)⟩
      exact hvalues r q fun k hk col hcol => hrow _ (hpasses k hk col hcol)

/-- **The keys of such a stack** have types over its columns. -/
theorem KeepsOrder.checkSortKey (hkeeps : p.KeepsOrder keys) (h : p.Checked) :
    keys.forM (Table.checkSortKey p.schema) = .ok () := by
  induction hkeeps with
  | order =>
    cases h with
    | order _ hcheck => exact hcheck
  | filter _ ih =>
    cases h with
    | filter hc hfilter =>
      rw [schema, Table.schema_of_filterSchema hfilter]
      exact ih hc
  | limit _ ih =>
    cases h with
    | limit hc => exact ih hc
  | project _ hpasses ih =>
    cases h with
    | project hc hfields =>
      refine Result.forM_eq_ok_iff.mpr fun k hk => ?_
      have hcheck := Table.checkSortKey_congr fun col hcol =>
        (hpasses k hk col hcol).typeOf_eq hfields
      rw [schema, hcheck]
      exact Result.forM_eq_ok_iff.mp (ih hc) k hk

end Plan

end TableQuery
