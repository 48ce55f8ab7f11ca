import TableQuery.Proofs.Relation.Built

/-! # The nodes of tables that are built

Every call that makes a table puts a leaf, a node over one table or a join over two: this is the
induction on the plan of a table that is built (`Built.root_induction`). It gives what the calls
leave in the plan beyond what is checked against schemas. Rows held in a plan are those of client
data, under the schema that was inferred from it (`Built.exists_source_of_values`). -/

namespace TableQuery

namespace Plan

theorem mem_nodes_self (p : Plan) : p ∈ p.nodes := by
  cases p
  exact List.mem_cons_self

theorem mem_nodesOfAll {q p : Plan} : ∀ {ps : List Plan}, p ∈ ps → q ∈ p.nodes → q ∈ nodesOfAll ps
  | p' :: ps, hp, hq => by
    rw [nodesOfAll, List.mem_append]
    rcases List.mem_cons.mp hp with rfl | hp
    · exact .inl hq
    · exact .inr (mem_nodesOfAll hp hq)

/-- The nodes below a node are among its nodes. -/
theorem mem_nodes_of_child {op : Operation} {ref : TableRef} {schema : Schema}
    {children : List Plan} {c q : Plan} (hc : c ∈ children) (hq : q ∈ c.nodes) :
    q ∈ (node op ref schema children).nodes := List.mem_cons_of_mem _ (mem_nodesOfAll hc hq)

theorem mem_nodes_unary {op : Operation} {ref : TableRef} {schema : Schema} {c q : Plan} :
    q ∈ (node op ref schema [c]).nodes ↔ q = node op ref schema [c] ∨ q ∈ c.nodes := by
  simp [nodes, nodesOfAll]

theorem mem_nodes_binary {op : Operation} {ref : TableRef} {schema : Schema} {l r q : Plan} :
    q ∈ (node op ref schema [l, r]).nodes ↔
      q = node op ref schema [l, r] ∨ q ∈ l.nodes ∨ q ∈ r.nodes := by
  simp [nodes, nodesOfAll]

/-- Every batch held in a plan has a property, by the schema of its node. -/
def Holds (P : Schema → Batch → Prop) (p : Plan) : Prop :=
  ∀ q ∈ p.nodes, ∀ b, q.op = .values b → P q.schema b

theorem Holds.of_child {P : Schema → Batch → Prop} {operation : Operation} {ref : TableRef}
    {schema : Schema} {children : List Plan} {c : Plan}
    (h : (node operation ref schema children).Holds P) (hc : c ∈ children) : c.Holds P :=
  fun q hq => h q (mem_nodes_of_child hc hq)

end Plan

/-! ### The nodes that calls put on a plan -/

/-- Whether the operation reads one input. -/
def Operation.readsOne : Operation → Bool
  | .project _ | .filter _ | .aggregate _ _ | .order _ | .limit _ _ => true
  | _ => false

/-- A node over one plan has the full joins of that plan. -/
theorem Plan.hasFullJoin_unary {op : Operation} (hop : op.readsOne = true) (ref : TableRef)
    (schema : Schema) (c : Plan) : (node op ref schema [c]).hasFullJoin = c.hasFullJoin := by
  cases op with
  | scan | sqlQuery | values | join => cases hop
  | _ => simp [hasFullJoin, nodes, nodesOfAll, Plan.op]

namespace Table

/-- **What the nodes that calls make keep**: a property of plans that every node over one table has
if its input does. -/
def KeptByNodes (P : Plan → Prop) : Prop :=
  ∀ (op : Operation) (ref : TableRef) (schema : Schema) (c : Plan), op.readsOne = true → P c →
    P (.node op ref schema [c])

namespace KeptByNodes

variable {P : Plan → Prop} {ref next : TableRef} {t u right : Table}

theorem derive (hP : KeptByNodes P) {op : Operation} {schema : Schema} (hop : op.readsOne = true)
    (ht : P t.root) (h : (t.derive op schema).Gives ref u next) : P u.root := by
  obtain ⟨rfl, -⟩ := Sound.gives_derive_iff.mp h
  exact hP op ref schema t.root hop ht

theorem filter (hP : KeptByNodes P) {predicate : Expr} (ht : P t.root)
    (h : (t.filter predicate).Gives ref u next) : P u.root := by
  obtain ⟨_, mid, -, h⟩ := Build.gives_bind_iff.mp h
  exact hP.derive rfl ht h

theorem select (hP : KeptByNodes P) {exprs : List Expr} (ht : P t.root)
    (h : (t.select exprs).Gives ref u next) : P u.root := by
  obtain ⟨_, mid, -, h⟩ := Build.gives_bind_iff.mp h
  exact hP.derive rfl ht h

theorem selectColumns (hP : KeptByNodes P) {names : List String} (ht : P t.root)
    (h : (t.selectColumns names).Gives ref u next) : P u.root := by
  obtain ⟨_, mid, -, h⟩ := Build.gives_bind_iff.mp h
  exact hP.select ht h

theorem drop (hP : KeptByNodes P) {names : List String} (ht : P t.root)
    (h : (t.drop names).Gives ref u next) : P u.root := by
  obtain ⟨_, mid, -, h⟩ := Build.gives_bind_iff.mp h
  exact hP.select ht h

theorem aggregate (hP : KeptByNodes P) {groupBy metrics : List Expr} (ht : P t.root)
    (h : (t.aggregate groupBy metrics).Gives ref u next) : P u.root := by
  obtain ⟨_, mid, -, h⟩ := Build.gives_bind_iff.mp h
  exact hP.derive rfl ht h

theorem orderBy (hP : KeptByNodes P) {keys : List (SortKey Expr)} (ht : P t.root)
    (h : (t.orderBy keys).Gives ref u next) : P u.root := by
  obtain ⟨_, mid, -, h⟩ := Build.gives_bind_iff.mp h
  exact hP.derive rfl ht h

theorem topk (hP : KeptByNodes P) {column : String} {k : Nat} (ht : P t.root)
    (h : (t.topk column k).Gives ref u next) : P u.root := by
  obtain ⟨_, mid, -, h⟩ := Build.gives_bind_iff.mp h
  obtain ⟨counts, mid', hcounts, h⟩ := Build.gives_bind_iff.mp h
  obtain ⟨sorted, mid'', hsorted, h⟩ := Build.gives_bind_iff.mp h
  exact hP.derive rfl (hP.orderBy (hP.aggregate ht hcounts) hsorted) h

theorem joinWith (hP : KeptByNodes P)
    (hjoin : ∀ (j : Join) (ref : TableRef) (schema : Schema) (l r : Plan), P l → P r →
      P (.node (.join j) ref schema [l, r]))
    {predicate : JoinPredicate} {kind : JoinKind} {suffixes : JoinSuffixes} (ht : P t.root)
    (hright : P right.root)
    (h : (t.joinWith right predicate kind suffixes).Gives ref u next) : P u.root := by
  have hnode : ∀ {other : Table} {inputs : JoinInputs} {leftSuffixes : JoinSuffixes}
      {ref : TableRef}, P other.root → (do
        let planned ← Build.ofResult (inputs.plan predicate kind)
        return ⟨← Build.node (.join planned.1) planned.2 [t.root, other.root], leftSuffixes⟩ :
          Build Table).Gives ref u next → P u.root := by
    intro other inputs leftSuffixes ref hother h
    obtain ⟨p, -, rfl, -⟩ := Sound.gives_join_iff.mp h
    exact hjoin p.1 _ _ _ _ ht hother
  unfold Table.joinWith at h
  dsimp only at h
  split at h
  · obtain ⟨other, mid, hview, h⟩ := Build.gives_bind_iff.mp h
    exact hnode (hP.derive rfl hright hview) h
  · exact hnode hright h

end KeptByNodes

/-- **Induction on the plans of tables that are built**: a leaf for a table of the store, for a
query or for client data, a node over one plan, or a join of two. -/
theorem Built.root_induction {P : Plan → Prop}
    (scan : ∀ name ref schema, P (.node (.scan name) ref schema []))
    (sqlQuery : ∀ query ref schema, P (.node (.sqlQuery query) ref schema []))
    (values : ∀ (data : Source) batch ref schema, data.inferSchema = .ok schema →
      data.toBatch schema = .ok batch → P (.node (.values batch) ref schema []))
    (unary : KeptByNodes P)
    (join : ∀ (j : Join) ref schema l r, P l → P r → P (.node (.join j) ref schema [l, r]))
    {next : TableRef} {t : Table} (h : Built next t) : P t.root := by
  have hleaf : ∀ {op : Operation} {schema : Schema} {ref next : TableRef} {u : Table},
      (∀ ref, P (.node op ref schema [])) → (leaf op schema).Gives ref u next → P u.root := by
    intro op schema ref next u hop h
    obtain ⟨p, mid, hp, h⟩ := Build.gives_bind_iff.mp h
    obtain ⟨rfl, -⟩ := Build.gives_node_iff.mp hp
    obtain ⟨rfl, -⟩ := Build.gives_pure_iff.mp h
    exact hop ref
  induction h with
  | scan h => exact hleaf (fun ref => scan _ ref _) h
  | sqlQuery h => exact hleaf (fun ref => sqlQuery _ ref _) h
  | memory h =>
    obtain ⟨schema, hschema, h⟩ := Build.gives_ofResult_bind_iff.mp h
    obtain ⟨batch, hbatch, h⟩ := Build.gives_ofResult_bind_iff.mp h
    exact hleaf (fun ref => values _ batch ref schema hschema hbatch) h
  | later _ _ ih | withSuffixes _ ih => exact ih
  | filter _ h ih => exact unary.filter ih h
  | select _ h ih | mutate _ h ih => exact unary.select ih h
  | selectColumns _ h ih => exact unary.selectColumns ih h
  | drop _ h ih => exact unary.drop ih h
  | view _ h ih | limitOffset _ h ih => exact unary.derive rfl ih h
  | joinWith _ _ h ihl ihr => exact unary.joinWith join ihl ihr h
  | aggregate _ h ih => exact unary.aggregate ih h
  | orderBy _ h ih => exact unary.orderBy ih h
  | topk _ h ih => exact unary.topk ih h

/-! ### Rows held in a plan -/

/-- **Rows held in the plan of a table** are those of client data, under the schema inferred from
it. -/
theorem Built.exists_source_of_values {next : TableRef} {t : Table} (h : Built next t)
    {batch : Batch} {ref : TableRef} {schema : Schema} {children : List Plan}
    (hnode : Plan.node (.values batch) ref schema children ∈ t.root.nodes) :
    ∃ data : Source, data.inferSchema = .ok schema ∧ data.toBatch schema = .ok batch := by
  revert hnode
  refine h.root_induction (P := fun p => .node (.values batch) ref schema children ∈ p.nodes → _)
    ?_ ?_ ?_ ?_ ?_
  · intro name ref' schema' hmem
    cases List.mem_singleton.mp hmem
  · intro query ref' schema' hmem
    cases List.mem_singleton.mp hmem
  · intro data batch' ref' schema' hschema hbatch hmem
    cases List.mem_singleton.mp hmem
    exact ⟨data, hschema, hbatch⟩
  · intro op ref' schema' c hop ih hmem
    rcases Plan.mem_nodes_unary.mp hmem with heq | hmem
    · cases heq
      cases hop
    · exact ih hmem
  · intro j ref' schema' l r ihl ihr hmem
    rcases Plan.mem_nodes_binary.mp hmem with heq | hmem | hmem
    · cases heq
    · exact ihl hmem
    · exact ihr hmem

end Table

end TableQuery
