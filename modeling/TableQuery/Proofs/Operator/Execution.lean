import TableQuery.Proofs.Operator.Projection
import TableQuery.Proofs.Relation.Leaves

/-! # Plans that are run

What running a plan consists of, node by node. `Plan.Executes` relates a plan to the operators it is
lowered to and to the batch that these give: each node has passed its check, its expressions are
resolved over the columns of the node below it, and its rows are computed from the rows of that
node. Every checked plan that is lowered and run is related to its batch (`executes_of_lower`), so
that a statement about results is an induction on this relation, with one case for each operation.

What such a statement needs of the rows that a plan starts from is a property of its leaves
(`Plan.LeavesGive`). -/

namespace TableQuery

/-! ### The steps of a run -/

/-- **A plan gives a batch**: the operators that it is lowered to, and the rows that they give. -/
inductive Plan.Executes (provider : RowProvider) : Plan → OperatorPlan → Batch → Prop
  | scan {name : String} {ref : TableRef} {schema : Schema} {b : Batch} :
      provider.scan name = .ok b →
      Executes provider (.node (.scan name) ref schema []) (.node (.scan name) schema []) b
  | sqlQuery {query : String} {ref : TableRef} {schema : Schema} {b : Batch} :
      provider.query query = .ok b →
      Executes provider (.node (.sqlQuery query) ref schema [])
        (.node (.sqlQuery query) schema []) b
  | values {b : Batch} {ref : TableRef} {schema : Schema} :
      Executes provider (.node (.values b) ref schema []) (.node (.values b) schema []) b
  | project {exprs : List Expr} {ref : TableRef} {schema w : Schema} {c : Plan}
      {child op : OperatorPlan} {n : Nat} {rs : List RowWindow} {xs : List RowExpr}
      {input b : Batch} {columns : List Column} : Executes provider c child input →
      exprs.mapM (Table.projectedField c.schema) = .ok schema.fields →
      OperatorPlan.Projected child exprs schema n rs w xs op →
      RowWindow.columns rs input.rows = .ok columns →
      (input.withColumns columns).project xs schema.types = .ok b →
      Executes provider (.node (.project exprs) ref schema [c]) op b
  | filter {predicate : Expr} {ref : TableRef} {schema : Schema} {c : Plan} {child : OperatorPlan}
      {x : RowExpr} {input : Batch} {rows : List Row} : Executes provider c child input →
      Table.filterSchema c.schema predicate = .ok schema →
      predicate.resolve (Scope.single c.schema) = .ok x → x.keepRows input.rows = .ok rows →
      Executes provider (.node (.filter predicate) ref schema [c])
        (.node (.filter x) schema [child]) ⟨input.types, rows⟩
  | join {j : Join} {ref : TableRef} {schema : Schema} {l r : Plan} {left right : OperatorPlan}
      {suffixes : JoinSuffixes} {selfRef : Option TableRef} {predicate : JoinPredicate}
      {kind : JoinKind} {join : RowJoin} {leftInput rightInput b : Batch} {rows : List Row} :
      Executes provider l left leftInput → Executes provider r right rightInput →
      (⟨l.ref, l.schema, r.ref, r.schema, suffixes, selfRef⟩ : JoinInputs).plan predicate kind =
        .ok (j, schema) →
      j.resolve l r = .ok join → join.rows leftInput.rows rightInput.rows = .ok rows →
      Batch.ofRows schema.types rows = .ok b →
      Executes provider (.node (.join j) ref schema [l, r])
        (.node (.join join) schema [left, right]) b
  | aggregate {groupBy metrics : List Expr} {ref : TableRef} {schema : Schema} {c : Plan}
      {child : OperatorPlan} {keys : List RowExpr} {aggregates : List RowAggregate}
      {input b : Batch} {rows : List Row} : Executes provider c child input →
      Table.aggregateSchema c.schema groupBy metrics = .ok schema →
      Expr.resolveAll (Scope.single c.schema) groupBy = .ok keys →
      metrics.mapM (Expr.resolveAggregate (Scope.single c.schema)) = .ok aggregates →
      RowAggregation.rows ⟨keys, aggregates⟩ input.rows = .ok rows →
      Batch.ofRows schema.types rows = .ok b →
      Executes provider (.node (.aggregate groupBy metrics) ref schema [c])
        (.node (.aggregate ⟨keys, aggregates⟩) schema [child]) b
  | order {keys : List (SortKey Expr)} {ref : TableRef} {c : Plan} {child : OperatorPlan}
      {rkeys : List (SortKey RowExpr)} {input : Batch} {rows : List Row} :
      Executes provider c child input → keys.forM (Table.checkSortKey c.schema) = .ok () →
      SortKey.resolveAll (Scope.single c.schema) keys = .ok rkeys →
      Row.sort rkeys input.rows = .ok rows →
      Executes provider (.node (.order keys) ref c.schema [c])
        (.node (.sort rkeys) c.schema [child]) ⟨input.types, rows⟩
  | limit {n : Option Nat} {offset : Nat} {ref : TableRef} {c : Plan} {child : OperatorPlan}
      {input : Batch} : Executes provider c child input →
      Executes provider (.node (.limit n offset) ref c.schema [c])
        (.node (.limit n offset) c.schema [child]) (input.slice offset n)

namespace Plan

variable {provider : RowProvider} {p : Plan} {op : OperatorPlan} {b : Batch}

/-- The operators have the columns of the plan. -/
theorem Executes.schema_eq (h : p.Executes provider op b) : op.schema = p.schema := by
  cases h with
  | project _ _ hprojected =>
    rw [hprojected.eq]
    rfl
  | _ => rfl

/-- **The leaves of a plan give batches with a property**, by the schema of the leaf. -/
def LeavesGive (provider : RowProvider) (P : Schema → Batch → Prop) (p : Plan) : Prop :=
  ∀ q ∈ p.nodes, match q.op with
    | .scan name => ∀ b, provider.scan name = .ok b → P q.schema b
    | .sqlQuery query => ∀ b, provider.query query = .ok b → P q.schema b
    | .values b => P q.schema b
    | _ => True

theorem LeavesGive.of_child {P : Schema → Batch → Prop} {operation : Operation} {ref : TableRef}
    {schema : Schema} {children : List Plan} {c : Plan}
    (h : (node operation ref schema children).LeavesGive provider P) (hc : c ∈ children) :
    c.LeavesGive provider P := fun q hq => h q (mem_nodes_of_child hc hq)

end Plan

/-! ### Lowering and running -/

theorem Table.schema_of_filterSchema {s schema : Schema} {predicate : Expr}
    (h : filterSchema s predicate = .ok schema) : schema = s := by
  obtain ⟨t, -, h⟩ := Result.bind_eq_ok_iff.mp h
  split at h
  · cases h
  · split at h <;> cases h
    rfl

namespace OperatorPlan

variable {provider : RowProvider}

/-- A node with one input is lowered on top of what its input is lowered to. -/
theorem lower_unary {op : Operation} {ref : TableRef} {schema : Schema} {c : Plan} {n m : Nat}
    {p : OperatorPlan} (hlower : lower (.node op ref schema [c]) = lower c >>= unaryNode op schema)
    (hc : c.Checked) (h : lower (.node op ref schema [c]) n = .ok (p, m)) :
    ∃ child k, lower c n = .ok (child, k) ∧ child.schema = c.schema ∧
      unaryNode op schema child k = .ok (p, m) := by
  rw [hlower, Lowering.bind_run] at h
  obtain ⟨⟨child, k⟩, hchild, h⟩ := Result.bind_eq_ok_iff.mp h
  exact ⟨child, k, hchild, ((lower_decides hc n).good_of_ok hchild).1, h⟩

/-- A node over one plan whose operator takes no names of its own, on top of what the plan is
lowered to. -/
theorem ofPlan_unary_of_lower {op : Operation} {schema : Schema}
    {f : OperatorPlan → Result OperatorPlan} {c : Plan} (hop : op.readsOne = true)
    (hnode : ∀ child k, lower c 0 = .ok (child, k) →
      unaryNode op schema child = .ofResult (f child)) (ref : TableRef) :
    ofPlan (.node op ref schema [c]) = ofPlan c >>= f := by
  have hlower : lower (.node op ref schema [c]) = lower c >>= unaryNode op schema := by
    cases op with
    | scan | sqlQuery | values | join => cases hop
    | _ => rfl
  have hofPlan : ∀ p : Plan, ofPlan p = (lower p 0).map Prod.fst := by
    intro p
    change (lower p 0 >>= _) = _
    cases lower p 0 <;> rfl
  rw [hofPlan, hofPlan, hlower, Lowering.bind_run]
  cases hc : lower c 0 with
  | error e => rfl
  | ok child =>
    rw [Result.ok_bind, hnode _ _ hc]
    change (Lowering.ofResult (f child.1) child.2).map Prod.fst = f child.1
    unfold Lowering.ofResult
    cases f child.1 <;> rfl

theorem ofPlan_unary {op : Operation} {schema : Schema} {f : OperatorPlan → Result OperatorPlan}
    (hop : op.readsOne = true) (hnode : ∀ child, unaryNode op schema child = .ofResult (f child))
    (ref : TableRef) (c : Plan) : ofPlan (.node op ref schema [c]) = ofPlan c >>= f :=
  ofPlan_unary_of_lower hop (fun child _ _ => hnode child) ref

/-- What a checked plan is lowered to has the columns of the plan. -/
theorem ofPlan_unary_of_checked {op : Operation} {schema : Schema}
    {f : OperatorPlan → Result OperatorPlan} {c : Plan} (hop : op.readsOne = true)
    (hc : c.Checked)
    (hnode : ∀ child : OperatorPlan, child.schema = c.schema →
      unaryNode op schema child = .ofResult (f child)) (ref : TableRef) :
    ofPlan (.node op ref schema [c]) = ofPlan c >>= f :=
  ofPlan_unary_of_lower hop
    (fun child _ hchild => hnode child ((lower_decides hc 0).good_of_ok hchild).1) ref

theorem lower_join_eq_ok {j : Join} {ref : TableRef} {schema : Schema} {left right : Plan}
    {n m : Nat} {p : OperatorPlan}
    (h : lower (.node (.join j) ref schema [left, right]) n = .ok (p, m)) :
    ∃ l k r join, lower left n = .ok (l, k) ∧ lower right k = .ok (r, m) ∧
      j.resolve left right = .ok join ∧ p = .node (.join join) schema [l, r] := by
  rw [lower] at h
  obtain ⟨⟨l, k⟩, hl, h⟩ := Result.bind_eq_ok_iff.mp h
  obtain ⟨⟨r, k'⟩, hr, h⟩ := Result.bind_eq_ok_iff.mp h
  obtain ⟨⟨join, k''⟩, hjoin, h⟩ := Result.bind_eq_ok_iff.mp h
  obtain ⟨_, hresolve, hpair⟩ := Result.map_eq_ok_iff.mp hjoin
  cases hpair
  cases h
  exact ⟨l, k, r, join, hl, hr, hresolve, rfl⟩

theorem ofResult_eq_ok_iff {r : Result OperatorPlan} {k m : Nat} {p : OperatorPlan} :
    Lowering.ofResult r k = .ok (p, m) ↔ r = .ok p ∧ k = m := by
  cases r <;> simp [Lowering.ofResult, Except.map]

theorem run_unary_eq_ok_iff {op : Operator} {schema : Schema} {child : OperatorPlan} {b : Batch} :
    (node op schema [child]).run provider = .ok b ↔
      ∃ input, child.run provider = .ok input ∧ op.run provider schema.types [input] = .ok b := by
  rw [run_unary, Result.bind_eq_ok_iff]

/-- An operator that makes a batch of rows that it computes from those of its input. -/
theorem run_rows_eq_ok_iff {op : Operator} {schema : Schema} {child : OperatorPlan} {b : Batch}
    {compute : List Row → Result (List Row)} {make : Batch → List Row → Result Batch}
    (hop : ∀ input, op.run provider schema.types [input] = compute input.rows >>= make input) :
    (node op schema [child]).run provider = .ok b ↔
      ∃ input rows, child.run provider = .ok input ∧ compute input.rows = .ok rows ∧
        make input rows = .ok b := by
  simp only [run_unary_eq_ok_iff, hop, Result.bind_eq_ok_iff, exists_and_left]

theorem run_filter_eq_ok_iff {x : RowExpr} {schema : Schema} {child : OperatorPlan} {b : Batch} :
    (node (.filter x) schema [child]).run provider = .ok b ↔
      ∃ input rows, child.run provider = .ok input ∧ x.keepRows input.rows = .ok rows ∧
        .ok ⟨input.types, rows⟩ = (.ok b : Result Batch) := run_rows_eq_ok_iff fun _ => rfl

theorem run_aggregate_eq_ok_iff {a : RowAggregation} {schema : Schema} {child : OperatorPlan}
    {b : Batch} : (node (.aggregate a) schema [child]).run provider = .ok b ↔
      ∃ input rows, child.run provider = .ok input ∧ a.rows input.rows = .ok rows ∧
        Batch.ofRows schema.types rows = .ok b := run_rows_eq_ok_iff fun _ => rfl

theorem run_sort_eq_ok_iff {keys : List (SortKey RowExpr)} {schema : Schema} {child : OperatorPlan}
    {b : Batch} : (node (.sort keys) schema [child]).run provider = .ok b ↔
      ∃ input rows, child.run provider = .ok input ∧ Row.sort keys input.rows = .ok rows ∧
        .ok ⟨input.types, rows⟩ = (.ok b : Result Batch) := run_rows_eq_ok_iff fun _ => rfl

theorem run_join_eq_ok_iff {j : RowJoin} {schema : Schema} {left right : OperatorPlan} {b : Batch} :
    (node (.join j) schema [left, right]).run provider = .ok b ↔
      ∃ l r rows, left.run provider = .ok l ∧ right.run provider = .ok r ∧
        j.rows l.rows r.rows = .ok rows ∧ Batch.ofRows schema.types rows = .ok b := by
  rw [run, runAll, runAll, runAll]
  simp only [Operator.run, Result.bind_eq_ok_iff]
  constructor
  · rintro ⟨inputs, ⟨l, hl, rest, ⟨r, hr, _, hnil, hrest⟩, hinputs⟩, hrun⟩
    cases hnil
    cases hrest
    cases hinputs
    obtain ⟨rows, hrows, hb⟩ := Result.bind_eq_ok_iff.mp hrun
    exact ⟨l, r, rows, hl, hr, hrows, hb⟩
  · rintro ⟨l, r, rows, hl, hr, hrows, hb⟩
    refine ⟨[l, r], ⟨l, hl, [r], ⟨r, hr, [], rfl, rfl⟩, rfl⟩, ?_⟩
    exact Result.bind_eq_ok_iff.mpr ⟨rows, hrows, hb⟩

theorem Projected.exists_input {child p : OperatorPlan} {exprs : List Expr} {schema w : Schema}
    {n : Nat} {rs : List RowWindow} {xs : List RowExpr} {b : Batch}
    (h : Projected child exprs schema n rs w xs p) (hp : p.run provider = .ok b) :
    ∃ input, child.run provider = .ok input := by
  rw [h.eq, run_unary_eq_ok_iff] at hp
  obtain ⟨input, hinput, -⟩ := hp
  split at hinput
  · exact ⟨input, hinput⟩
  · obtain ⟨rows, hrows, -⟩ := run_unary_eq_ok_iff.mp hinput
    exact ⟨rows, hrows⟩

/-- **Running a plan that was lowered** goes through the steps of its nodes. -/
theorem executes_of_lower {p : Plan} (h : p.Checked) :
    ∀ {n m : Nat} {op : OperatorPlan} {b : Batch}, lower p n = .ok (op, m) →
      op.run provider = .ok b → p.Executes provider op b := by
  induction h with
  | scan =>
    intro n m op b hlower hrun
    cases hlower
    exact .scan hrun
  | sqlQuery =>
    intro n m op b hlower hrun
    cases hlower
    exact .sqlQuery hrun
  | values =>
    intro n m op b hlower hrun
    cases hlower
    cases hrun
    exact .values
  | @project exprs ref schema c hc hfields ih =>
    intro n m op b hlower hrun
    obtain ⟨child, k, hchild, hschema, hop⟩ := lower_unary rfl hc hlower
    have hdecides := projectNode_decides k (hschema ▸ hfields)
    obtain ⟨-, rs, w, xs, hprojected⟩ := hdecides.good_of_ok hop
    obtain ⟨input, hinput⟩ := hprojected.exists_input hrun
    rw [hprojected.run_eq hinput] at hrun
    obtain ⟨columns, hcolumns, hrun⟩ := Result.bind_eq_ok_iff.mp hrun
    exact .project (ih hchild hinput) hfields hprojected hcolumns hrun
  | @filter predicate ref schema c hc hfilter ih =>
    intro n m op b hlower hrun
    obtain ⟨child, k, hchild, hschema, hop⟩ := lower_unary rfl hc hlower
    obtain ⟨hop, -⟩ := ofResult_eq_ok_iff.mp hop
    obtain ⟨x, hx, hop⟩ := Result.bind_eq_ok_iff.mp hop
    cases hop
    obtain ⟨input, rows, hinput, hrows, hb⟩ := run_filter_eq_ok_iff.mp hrun
    cases hb
    exact .filter (ih hchild hinput) hfilter (hschema ▸ hx) hrows
  | join hl hr _ hplan ihl ihr =>
    intro n m op b hlower hrun
    obtain ⟨left, k, right, join, hleft, hright, hresolve, rfl⟩ := lower_join_eq_ok hlower
    obtain ⟨l, r, rows, hlrun, hrrun, hrows, hb⟩ := run_join_eq_ok_iff.mp hrun
    exact .join (ihl hleft hlrun) (ihr hright hrrun) hplan hresolve hrows hb
  | @aggregate groupBy metrics ref schema c hc haggregate ih =>
    intro n m op b hlower hrun
    obtain ⟨child, k, hchild, hschema, hop⟩ := lower_unary rfl hc hlower
    obtain ⟨hop, -⟩ := ofResult_eq_ok_iff.mp hop
    obtain ⟨keys, hkeys, hop⟩ := Result.bind_eq_ok_iff.mp hop
    obtain ⟨aggregates, haggregates, hop⟩ := Result.bind_eq_ok_iff.mp hop
    cases hop
    obtain ⟨input, rows, hinput, hrows, hb⟩ := run_aggregate_eq_ok_iff.mp hrun
    rw [hschema] at hkeys haggregates
    exact .aggregate (ih hchild hinput) haggregate hkeys haggregates hrows hb
  | @order keys ref c hc hcheck ih =>
    intro n m op b hlower hrun
    obtain ⟨child, k, hchild, hschema, hop⟩ := lower_unary rfl hc hlower
    obtain ⟨hop, -⟩ := ofResult_eq_ok_iff.mp hop
    obtain ⟨rkeys, hrkeys, hop⟩ := Result.bind_eq_ok_iff.mp hop
    cases hop
    obtain ⟨input, rows, hinput, hrows, hb⟩ := run_sort_eq_ok_iff.mp hrun
    cases hb
    exact .order (ih hchild hinput) hcheck (hschema ▸ hrkeys) hrows
  | limit hc ih =>
    intro n m op b hlower hrun
    obtain ⟨child, k, hchild, -, hop⟩ := lower_unary rfl hc hlower
    obtain ⟨hop, -⟩ := ofResult_eq_ok_iff.mp hop
    cases hop
    obtain ⟨input, hinput, hrun⟩ := run_unary_eq_ok_iff.mp hrun
    cases hrun
    exact .limit (ih hchild hinput)

theorem executes_of_ofPlan {p : Plan} (h : p.Checked) {op : OperatorPlan} {b : Batch}
    (hop : ofPlan p = .ok op) (hb : op.run provider = .ok b) : p.Executes provider op b := by
  obtain ⟨⟨op', n⟩, hlower, hop⟩ := Result.bind_eq_ok_iff.mp hop
  cases hop
  exact executes_of_lower h hlower hb

end OperatorPlan

/-- The operators of a plan that is run give its batch. -/
theorem Plan.Executes.run_eq {provider : RowProvider} {p : Plan} {op : OperatorPlan} {b : Batch}
    (h : p.Executes provider op b) : op.run provider = .ok b := by
  induction h with
  | scan hb | sqlQuery hb => exact hb
  | values => rfl
  | project _ _ hprojected hcolumns hrun ih =>
    rw [hprojected.run_eq ih, hcolumns]
    exact hrun
  | filter _ _ _ hrows ih =>
    exact OperatorPlan.run_filter_eq_ok_iff.mpr ⟨_, _, ih, hrows, rfl⟩
  | join _ _ _ _ hrows hb ihl ihr =>
    exact OperatorPlan.run_join_eq_ok_iff.mpr ⟨_, _, _, ihl, ihr, hrows, hb⟩
  | aggregate _ _ _ _ hrows hb ih =>
    exact OperatorPlan.run_aggregate_eq_ok_iff.mpr ⟨_, _, ih, hrows, hb⟩
  | order _ _ _ hrows ih =>
    exact OperatorPlan.run_sort_eq_ok_iff.mpr ⟨_, _, ih, hrows, rfl⟩
  | limit _ ih => exact OperatorPlan.run_unary_eq_ok_iff.mpr ⟨_, ih, rfl⟩

end TableQuery
