import TableQuery.Proofs.Result
import TableQuery.Proofs.Schema
import TableQuery.Relation.Table

/-! # Tables that can be built

`Table.Built next t` says that some sequence of calls makes the table `t`, and that `next` is a
reference that is free after them. What the calls check is left in the plan: every node of it has
passed the check of its operation against the schema of what it reads (`Plan.Checked`), and the two
sides of a join have different references. -/

namespace TableQuery

/-! ### Calls that succeed -/

namespace Build

variable {α β : Type}

/-- **A call succeeds**: from the next free reference it gives a result and another free one. -/
def Gives (x : Build α) (ref : TableRef) (a : α) (next : TableRef) : Prop :=
  (x.run.run ref).run = (.ok a, next)

variable {ref next : TableRef}

/-- The second of two calls goes on from the reference that the first one leaves free. -/
theorem run_bind {x : Build α} {f : α → Build β} :
    ((x >>= f).run.run ref).run = match (x.run.run ref).run with
      | (.ok a, mid) => ((f a).run.run mid).run
      | (.error e, mid) => (.error e, mid) := by
  rw [ExceptT.run_bind, StateT.run_bind, Id.run_bind]
  obtain ⟨r, mid⟩ := (x.run.run ref).run
  cases r <;> rfl

theorem run_bind_of_gives {x : Build α} {f : α → Build β} {a : α} (h : x.Gives ref a next) :
    ((x >>= f).run.run ref).run = ((f a).run.run next).run := by
  unfold Gives at h
  rw [run_bind, h]

theorem gives_bind_iff {x : Build α} {f : α → Build β} {b : β} :
    (x >>= f).Gives ref b next ↔ ∃ a mid, x.Gives ref a mid ∧ (f a).Gives mid b next := by
  unfold Gives
  rw [run_bind]
  obtain ⟨r, mid⟩ := (x.run.run ref).run
  cases r <;> simp

theorem gives_pure_iff {a b : α} : (pure a : Build α).Gives ref b next ↔ a = b ∧ ref = next := by
  have hrun : ((pure a : Build α).run.run ref).run = (.ok a, ref) := rfl
  rw [Gives, hrun, Prod.mk.injEq, Except.ok.injEq]

theorem gives_ofResult_iff {r : Result α} {a : α} :
    (ofResult r).Gives ref a next ↔ r = .ok a ∧ ref = next := by
  have hrun : ((ofResult r).run.run ref).run = (r, ref) := rfl
  rw [Gives, hrun, Prod.mk.injEq]

/-- A call that begins with a check goes on from the same reference. -/
theorem gives_ofResult_bind_iff {r : Result α} {f : α → Build β} {b : β} :
    (ofResult r >>= f).Gives ref b next ↔ ∃ a, r = .ok a ∧ (f a).Gives ref b next := by
  rw [gives_bind_iff]
  constructor
  · rintro ⟨a, mid, hcall, h⟩
    obtain ⟨ha, rfl⟩ := gives_ofResult_iff.mp hcall
    exact ⟨a, ha, h⟩
  · rintro ⟨a, ha, h⟩
    exact ⟨a, ref, gives_ofResult_iff.mpr ⟨ha, rfl⟩, h⟩

theorem gives_node_iff {op : Operation} {schema : Schema} {children : List Plan} {p : Plan} :
    (node op schema children).Gives ref p next ↔
      p = .node op ref schema children ∧ next = ⟨ref.index + 1⟩ := by
  have hrun : ((node op schema children).run.run ref).run =
      (.ok (.node op ref schema children), ⟨ref.index + 1⟩) := rfl
  rw [Gives, hrun, Prod.mk.injEq, Except.ok.injEq, eq_comm, @eq_comm _ _ next]

end Build

/-! ### Checked plans -/

/-- **Every node has passed its check** against the schemas of the nodes that it reads. -/
inductive Plan.Checked : Plan → Prop
  | scan {name : String} {ref : TableRef} {schema : Schema} :
      Checked (.node (.scan name) ref schema [])
  | sqlQuery {query : String} {ref : TableRef} {schema : Schema} :
      Checked (.node (.sqlQuery query) ref schema [])
  | values {batch : Batch} {ref : TableRef} {schema : Schema} :
      Checked (.node (.values batch) ref schema [])
  | project {exprs : List Expr} {ref : TableRef} {schema : Schema} {c : Plan} : Checked c →
      exprs.mapM (Table.projectedField c.schema) = .ok schema.fields →
      Checked (.node (.project exprs) ref schema [c])
  | filter {predicate : Expr} {ref : TableRef} {schema : Schema} {c : Plan} : Checked c →
      Table.filterSchema c.schema predicate = .ok schema →
      Checked (.node (.filter predicate) ref schema [c])
  | join {j : Join} {ref : TableRef} {schema : Schema} {l r : Plan} {suffixes : JoinSuffixes}
      {selfRef : Option TableRef} {predicate : JoinPredicate} {kind : JoinKind} : Checked l →
      Checked r → l.ref ≠ r.ref →
      (⟨l.ref, l.schema, r.ref, r.schema, suffixes, selfRef⟩ : JoinInputs).plan predicate kind =
        .ok (j, schema) →
      Checked (.node (.join j) ref schema [l, r])
  | aggregate {groupBy metrics : List Expr} {ref : TableRef} {schema : Schema} {c : Plan} :
      Checked c → Table.aggregateSchema c.schema groupBy metrics = .ok schema →
      Checked (.node (.aggregate groupBy metrics) ref schema [c])
  | order {keys : List (SortKey Expr)} {ref : TableRef} {c : Plan} : Checked c →
      keys.forM (Table.checkSortKey c.schema) = .ok () →
      Checked (.node (.order keys) ref c.schema [c])
  | limit {n : Option Nat} {offset : Nat} {ref : TableRef} {c : Plan} : Checked c →
      Checked (.node (.limit n offset) ref c.schema [c])

namespace Plan

/-- All nodes of a checked plan are checked. -/
theorem Checked.of_mem_nodes {p : Plan} (h : p.Checked) : ∀ q ∈ p.nodes, q.Checked := by
  have hone : ∀ {p : Plan}, nodesOfAll [p] = p.nodes := by simp [nodesOfAll]
  have hself := h
  induction h with
  | scan | sqlQuery | values =>
    intro q hq
    rw [List.mem_singleton.mp hq]
    exact hself
  | project hc _ ih | filter hc _ ih | aggregate hc _ ih | order hc _ ih =>
    intro q hq
    rw [nodes, hone] at hq
    rcases List.mem_cons.mp hq with rfl | hq
    · exact hself
    · exact ih hc q hq
  | limit hc ih =>
    intro q hq
    rw [nodes, hone] at hq
    rcases List.mem_cons.mp hq with rfl | hq
    · exact hself
    · exact ih hc q hq
  | join hl hr _ _ ihl ihr =>
    intro q hq
    rw [nodes, nodesOfAll, hone] at hq
    rcases List.mem_cons.mp hq with rfl | hq
    · exact hself
    · rcases List.mem_append.mp hq with hq | hq
      · exact ihl hl q hq
      · exact ihr hr q hq

end Plan

namespace Table

/-! ### Tables that are built -/

/-- **Tables that calls make**, with a reference that is free after them. -/
inductive Built : TableRef → Table → Prop
  | scan {name : String} {schema : Schema} {ref next : TableRef} {t : Table} :
      (scan name schema).Gives ref t next → Built next t
  | sqlQuery {query : String} {schema : Schema} {ref next : TableRef} {t : Table} :
      (sqlQuery query schema).Gives ref t next → Built next t
  | memory {data : Source} {ref next : TableRef} {t : Table} :
      (memory data).Gives ref t next → Built next t
  /-- Other tables may be built in between. -/
  | later {ref next : TableRef} {t : Table} : Built ref t → ref.index ≤ next.index → Built next t
  | withSuffixes {next : TableRef} {t : Table} {suffixes : JoinSuffixes} : Built next t →
      Built next (t.withSuffixes suffixes)
  | filter {ref next : TableRef} {t u : Table} {predicate : Expr} : Built ref t →
      (t.filter predicate).Gives ref u next → Built next u
  | select {ref next : TableRef} {t u : Table} {exprs : List Expr} : Built ref t →
      (t.select exprs).Gives ref u next → Built next u
  | selectColumns {ref next : TableRef} {t u : Table} {names : List String} : Built ref t →
      (t.selectColumns names).Gives ref u next → Built next u
  | mutate {ref next : TableRef} {t u : Table} {exprs : List Expr} : Built ref t →
      (t.mutate exprs).Gives ref u next → Built next u
  | drop {ref next : TableRef} {t u : Table} {names : List String} : Built ref t →
      (t.drop names).Gives ref u next → Built next u
  | view {ref next : TableRef} {t u : Table} : Built ref t → t.view.Gives ref u next → Built next u
  | joinWith {ref next : TableRef} {t right u : Table} {predicate : JoinPredicate} {kind : JoinKind}
      {suffixes : JoinSuffixes} : Built ref t → Built ref right →
      (t.joinWith right predicate kind suffixes).Gives ref u next → Built next u
  | aggregate {ref next : TableRef} {t u : Table} {groupBy metrics : List Expr} : Built ref t →
      (t.aggregate groupBy metrics).Gives ref u next → Built next u
  | orderBy {ref next : TableRef} {t u : Table} {keys : List (SortKey Expr)} : Built ref t →
      (t.orderBy keys).Gives ref u next → Built next u
  | limitOffset {ref next : TableRef} {t u : Table} {n : Option Nat} {offset : Nat} : Built ref t →
      (t.limitOffset n offset).Gives ref u next → Built next u
  | topk {ref next : TableRef} {t u : Table} {column : String} {k : Nat} : Built ref t →
      (t.topk column k).Gives ref u next → Built next u

/-- **What the calls keep**: the plan is checked, and its reference is used up. -/
structure Sound (next : TableRef) (t : Table) : Prop where
  checked : t.root.Checked
  ref_lt : t.root.ref.index < next.index

namespace Sound

variable {ref next : TableRef} {t u right : Table}

theorem gives_derive_iff {op : Operation} {schema : Schema} :
    (t.derive op schema).Gives ref u next ↔
      u = ⟨.node op ref schema [t.root], t.suffixes⟩ ∧ next = ⟨ref.index + 1⟩ := by
  rw [derive, Build.gives_bind_iff]
  constructor
  · rintro ⟨p, mid, hp, h⟩
    obtain ⟨rfl, rfl⟩ := Build.gives_node_iff.mp hp
    obtain ⟨rfl, rfl⟩ := Build.gives_pure_iff.mp h
    exact ⟨rfl, rfl⟩
  · rintro ⟨rfl, rfl⟩
    exact ⟨_, _, Build.gives_node_iff.mpr ⟨rfl, rfl⟩, Build.gives_pure_iff.mpr ⟨rfl, rfl⟩⟩

/-- The node of a join that can be planned. -/
theorem gives_join_iff {inputs : JoinInputs} {predicate : JoinPredicate} {kind : JoinKind}
    {l r : Plan} {suffixes : JoinSuffixes} :
    (do
      let (join, schema) ← Build.ofResult (inputs.plan predicate kind)
      return ⟨← Build.node (.join join) schema [l, r], suffixes⟩ : Build Table).Gives ref u next ↔
      ∃ p : Join × Schema, inputs.plan predicate kind = .ok p ∧
        u = ⟨.node (.join p.1) ref p.2 [l, r], suffixes⟩ ∧ next = ⟨ref.index + 1⟩ := by
  rw [Build.gives_ofResult_bind_iff]
  refine exists_congr fun p => and_congr_right fun _ => ?_
  rw [Build.gives_bind_iff]
  constructor
  · rintro ⟨q, mid, hq, h⟩
    obtain ⟨rfl, rfl⟩ := Build.gives_node_iff.mp hq
    obtain ⟨rfl, rfl⟩ := Build.gives_pure_iff.mp h
    exact ⟨rfl, rfl⟩
  · rintro ⟨rfl, rfl⟩
    exact ⟨_, _, Build.gives_node_iff.mpr ⟨rfl, rfl⟩, Build.gives_pure_iff.mpr ⟨rfl, rfl⟩⟩

/-- A new node on top of a table takes the reference that was free. -/
theorem of_derive {op : Operation} {schema : Schema}
    (hchecked : Plan.Checked (.node op ref schema [t.root]))
    (h : (t.derive op schema).Gives ref u next) : Sound next u := by
  obtain ⟨rfl, rfl⟩ := gives_derive_iff.mp h
  exact ⟨hchecked, Nat.lt_succ_self _⟩

theorem of_leaf {op : Operation} {schema : Schema}
    (hchecked : Plan.Checked (.node op ref schema []))
    (h : (leaf op schema).Gives ref u next) : Sound next u := by
  rw [leaf, Build.gives_bind_iff] at h
  obtain ⟨p, mid, hp, h⟩ := h
  obtain ⟨rfl, rfl⟩ := Build.gives_node_iff.mp hp
  obtain ⟨rfl, rfl⟩ := Build.gives_pure_iff.mp h
  exact ⟨hchecked, Nat.lt_succ_self _⟩

theorem memory {data : Source} (h : (memory data).Gives ref t next) : Sound next t := by
  rw [Table.memory, Build.gives_bind_iff] at h
  obtain ⟨schema, mid, -, h⟩ := h
  obtain ⟨batch, mid', -, h⟩ := Build.gives_bind_iff.mp h
  exact of_leaf .values h

theorem filter {predicate : Expr} (ht : Sound ref t)
    (h : (t.filter predicate).Gives ref u next) : Sound next u := by
  obtain ⟨schema, hs, h⟩ := Build.gives_ofResult_bind_iff.mp h
  exact of_derive (.filter ht.checked hs) h

theorem fields_of_outputSchema {fields : List (String × DataType)} {schema : Schema}
    (h : outputSchema fields = .ok schema) : schema.fields = fields := by
  unfold outputSchema at h
  split at h
  · cases h
  · exact Schema.ofFields_eq_ok_iff.mp h

theorem fields_of_projectSchema {schema projected : Schema} {exprs : List Expr}
    (h : projectSchema schema exprs = .ok projected) :
    exprs.mapM (projectedField schema) = .ok projected.fields := by
  unfold projectSchema at h
  split at h
  · cases h
  · obtain ⟨fields, hfields, h⟩ := Result.bind_eq_ok_iff.mp h
    rw [fields_of_outputSchema h, hfields]

theorem select {exprs : List Expr} (ht : Sound ref t)
    (h : (t.select exprs).Gives ref u next) : Sound next u := by
  obtain ⟨schema, hs, h⟩ := Build.gives_ofResult_bind_iff.mp h
  exact of_derive (.project ht.checked (fields_of_projectSchema hs)) h

theorem selectColumns {names : List String} (ht : Sound ref t)
    (h : (t.selectColumns names).Gives ref u next) : Sound next u := by
  obtain ⟨exprs, -, h⟩ := Build.gives_ofResult_bind_iff.mp h
  exact select ht h

theorem drop {names : List String} (ht : Sound ref t)
    (h : (t.drop names).Gives ref u next) : Sound next u := by
  obtain ⟨_, -, h⟩ := Build.gives_ofResult_bind_iff.mp h
  exact select ht h

/-- The columns of a schema project to themselves. -/
theorem mapM_projectedField_col (schema : Schema) :
    (schema.names.map Expr.col).mapM (projectedField schema) = .ok schema.fields := by
  have hfield : ∀ f ∈ schema.fields,
      projectedField schema (.col f.1) = .ok f := by
    intro f hf
    have ht : (Expr.col f.1).typeIn schema = .ok f.2 :=
      Schema.typeOf_eq_ok_iff.mpr (Schema.type?_eq_some_iff.mpr hf)
    rw [projectedField, outputField, ht]
    rfl
  have hfields := Result.mapM_eq_ok_map hfield
  rw [List.map_id'] at hfields
  rw [Schema.names, List.map_map, List.mapM_map]
  exact hfields

theorem view (ht : Sound ref t) (h : t.view.Gives ref u next) : Sound next u :=
  of_derive (.project ht.checked (mapM_projectedField_col t.schema)) h

theorem aggregate {groupBy metrics : List Expr} (ht : Sound ref t)
    (h : (t.aggregate groupBy metrics).Gives ref u next) : Sound next u := by
  obtain ⟨schema, hs, h⟩ := Build.gives_ofResult_bind_iff.mp h
  exact of_derive (.aggregate ht.checked hs) h

theorem orderBy {keys : List (SortKey Expr)} (ht : Sound ref t)
    (h : (t.orderBy keys).Gives ref u next) : Sound next u := by
  obtain ⟨_, hs, h⟩ := Build.gives_ofResult_bind_iff.mp h
  exact of_derive (.order ht.checked hs) h

theorem limitOffset {n : Option Nat} {offset : Nat} (ht : Sound ref t)
    (h : (t.limitOffset n offset).Gives ref u next) : Sound next u :=
  of_derive (.limit ht.checked) h

theorem topk {column : String} {k : Nat} (ht : Sound ref t)
    (h : (t.topk column k).Gives ref u next) : Sound next u := by
  obtain ⟨key, -, h⟩ := Build.gives_ofResult_bind_iff.mp h
  obtain ⟨counts, mid, hcounts, h⟩ := Build.gives_bind_iff.mp h
  obtain ⟨sorted, mid', hsorted, h⟩ := Build.gives_bind_iff.mp h
  exact limitOffset (orderBy (aggregate ht hcounts) hsorted) h

/-- A join of two tables with references of their own. -/
theorem join_of_ne {inputs : JoinInputs} {predicate : JoinPredicate} {kind : JoinKind}
    {suffixes : JoinSuffixes} {selfRef : Option TableRef} {leftSuffixes : JoinSuffixes}
    (ht : t.root.Checked) (hright : right.root.Checked) (hne : t.root.ref ≠ right.root.ref)
    (hinputs : inputs =
      ⟨t.root.ref, t.root.schema, right.root.ref, right.root.schema, suffixes, selfRef⟩)
    (h : (do
      let (join, schema) ← Build.ofResult (inputs.plan predicate kind)
      return ⟨← Build.node (.join join) schema [t.root, right.root], leftSuffixes⟩ :
        Build Table).Gives ref u next) : Sound next u := by
  obtain ⟨⟨j, schema⟩, hj, rfl, rfl⟩ := gives_join_iff.mp h
  subst hinputs
  exact ⟨.join ht hright hne hj, Nat.lt_succ_self _⟩

theorem joinWith {predicate : JoinPredicate} {kind : JoinKind} {suffixes : JoinSuffixes}
    (ht : Sound ref t) (hright : Sound ref right)
    (h : (t.joinWith right predicate kind suffixes).Gives ref u next) : Sound next u := by
  unfold Table.joinWith at h
  dsimp only at h
  split at h
  · obtain ⟨other, mid, hview, h⟩ := Build.gives_bind_iff.mp h
    have hother := view hright hview
    obtain ⟨rfl, -⟩ := gives_derive_iff.mp hview
    -- The view takes the reference that was free, so it is not that of the table.
    refine join_of_ne ht.checked hother.checked (fun he => ?_) rfl h
    have hlt := ht.ref_lt
    rw [he] at hlt
    exact Nat.lt_irrefl _ hlt
  · rename_i hself
    refine join_of_ne ht.checked hright.checked (fun he => hself ?_) rfl h
    exact beq_iff_eq.mpr he

end Sound

/-- **Tables that are built are sound.** -/
theorem Built.sound {next : TableRef} {t : Table} (h : Built next t) : Sound next t := by
  induction h with
  | scan h => exact .of_leaf .scan h
  | sqlQuery h => exact .of_leaf .sqlQuery h
  | memory h => exact .memory h
  | later _ hle ih => exact ⟨ih.checked, Nat.lt_of_lt_of_le ih.ref_lt hle⟩
  | withSuffixes _ ih => exact ⟨ih.checked, ih.ref_lt⟩
  | filter _ h ih => exact ih.filter h
  | select _ h ih => exact ih.select h
  | selectColumns _ h ih => exact ih.selectColumns h
  | mutate _ h ih => exact ih.select h
  | drop _ h ih => exact ih.drop h
  | view _ h ih => exact ih.view h
  | joinWith _ _ h ihl ihr => exact ihl.joinWith ihr h
  | aggregate _ h ih => exact ih.aggregate h
  | orderBy _ h ih => exact ih.orderBy h
  | limitOffset _ h ih => exact ih.limitOffset h
  | topk _ h ih => exact ih.topk h

end Table

end TableQuery
