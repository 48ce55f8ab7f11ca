import TableQuery.Proofs.Operator.Execution
import TableQuery.Proofs.Session.Errors
import TableQuery.Proofs.Session.Steps

/-! # Compiled queries

Compiling cuts the plan of a query to the rows that are wanted, renders it and lowers it. The plan
that is rendered and lowered is that of the query, or has one more or another limit at its root
(`Plan.CutOf`): it is checked if the query's plan is, has the same columns and reads the same
leaves. `Query.compiles_of_compile` says it of every query that compiles. -/

namespace TableQuery

/-! ### Limits at the root -/

/-- **A plan cut to fewer rows**: the plan itself, or one with a limit on top of it or in the place
of the limit at its root. -/
inductive Plan.CutOf (p : Plan) : Plan → Prop
  | self : CutOf p p
  | onTop (n : Nat) (ref : TableRef) : CutOf p (.node (.limit (some n) 0) ref p.schema [p])
  | instead {m : Option Nat} {offset : Nat} {own : TableRef} {schema : Schema}
      {children : List Plan} (n : Nat) (ref : TableRef) :
      p = .node (.limit m offset) own schema children →
      CutOf p (.node (.limit (some n) offset) ref schema children)

namespace Plan

variable {p q : Plan}

theorem cutOf_of_cut {n : Nat} {ref next : TableRef} (h : (p.cut n).Gives ref q next) :
    p.CutOf q := by
  obtain ⟨rfl, -⟩ := Build.gives_node_iff.mp h
  exact .onTop n ref

/-- What the caller wants cuts the plan. -/
theorem cutOf_of_withLimit {defaultLimit : Option Nat} {choice : LimitChoice} {ref next : TableRef}
    (h : (p.withLimit defaultLimit choice).Gives ref q next) : p.CutOf q := by
  unfold withLimit at h
  split at h
  · obtain ⟨rfl, -⟩ := Build.gives_node_iff.mp h
    exact .instead _ ref rfl
  · exact cutOf_of_cut h
  · obtain ⟨rfl, -⟩ := Build.gives_pure_iff.mp h
    exact .self
  · split at h
    · exact cutOf_of_cut h
    · obtain ⟨rfl, -⟩ := Build.gives_pure_iff.mp h
      exact .self
  · obtain ⟨rfl, -⟩ := Build.gives_pure_iff.mp h
    exact .self

namespace CutOf

theorem schema_eq (h : p.CutOf q) : q.schema = p.schema := by
  cases h with
  | self | onTop => rfl
  | instead n ref hp => rw [hp]; rfl

theorem hasFullJoin_eq (h : p.CutOf q) : q.hasFullJoin = p.hasFullJoin := by
  cases h with
  | self => rfl
  | onTop n ref => exact hasFullJoin_unary rfl ref p.schema p
  | instead n ref hp =>
    subst hp
    simp [hasFullJoin, nodes, Plan.op]

theorem checked (h : p.CutOf q) (hp : p.Checked) : q.Checked := by
  cases h with
  | self => exact hp
  | onTop n ref => exact .limit hp
  | instead n ref heq =>
    subst heq
    cases hp with
    | limit hc => exact .limit hc

/-- The nodes of a plan that is cut are those of the plan, but for a limit. -/
theorem mem_nodes (h : p.CutOf q) {r : Plan} (hr : r ∈ q.nodes) :
    r ∈ p.nodes ∨
      ∃ n offset ref schema children, r = node (.limit n offset) ref schema children := by
  cases h with
  | self => exact .inl hr
  | onTop n ref =>
    rcases mem_nodes_unary.mp hr with rfl | hr
    · exact .inr ⟨_, _, _, _, _, rfl⟩
    · exact .inl hr
  | instead n ref heq =>
    rcases List.mem_cons.mp hr with rfl | hr
    · exact .inr ⟨_, _, _, _, _, rfl⟩
    · rw [heq]
      exact .inl (List.mem_cons_of_mem _ hr)

/-- A plan that is cut reads the same leaves. -/
theorem leavesGive (h : p.CutOf q) {provider : RowProvider} {P : Schema → Batch → Prop}
    (hp : p.LeavesGive provider P) : q.LeavesGive provider P := by
  intro r hr
  rcases h.mem_nodes hr with hr | ⟨_, _, _, _, _, rfl⟩
  · exact hp r hr
  · trivial

end CutOf

end Plan

/-! ### Errors of building -/

namespace Build

variable {α β : Type} {kind : Error → Prop} {x : Build α} {f : α → Build β}

/-- Every error of building is of some kind. -/
def FailsWith (kind : Error → Prop) (x : Build α) : Prop :=
  ∀ ref, Result.FailsWith kind (x.run.run ref).run.1

theorem failsWith_ofResult {r : Result α} (h : r.FailsWith kind) : (ofResult r).FailsWith kind :=
  fun _ => h

theorem failsWith_pure (a : α) : (pure a : Build α).FailsWith kind := fun _ => Result.failsWith_ok a

theorem failsWith_node (op : Operation) (schema : Schema) (children : List Plan) :
    (node op schema children).FailsWith kind := fun _ => Result.failsWith_ok _

theorem failsWith_bind (hx : x.FailsWith kind)
    (hf : ∀ ref a next, x.Gives ref a next → (f a).FailsWith kind) : (x >>= f).FailsWith kind := by
  intro ref
  rw [run_bind]
  split
  · rename_i a mid heq
    exact hf ref a mid heq mid
  · rename_i e mid heq
    intro e' he
    cases he
    exact hx ref e (by rw [heq])

end Build

theorem Plan.failsWith_withLimit {kind : Error → Prop} (p : Plan) (defaultLimit : Option Nat)
    (choice : LimitChoice) : (p.withLimit defaultLimit choice).FailsWith kind := by
  unfold withLimit
  repeat' split
  all_goals first | exact Build.failsWith_node _ _ _ | exact Build.failsWith_pure _

/-! ### Compiling -/

/-- **A query that was compiled**: a plan cut from its own, rendered and lowered. -/
structure CompiledQuery.Compiles (capabilities : Capabilities) (q : Query) (root : Plan)
    (c : CompiledQuery) : Prop where
  cut : q.table.root.CutOf root
  sql : capabilities.dialect.render .statement root = .ok c.sql
  plan : OperatorPlan.ofPlan root = .ok c.plan
  schema : c.schema = q.table.schema
  shape : c.shape = q.shape

namespace Query

variable {q : Query} {capabilities : Capabilities} {config : Config} {choice : LimitChoice}
  {ref next : TableRef} {c : CompiledQuery}

/-- The plan that is compiled. -/
def rootFor (q : Query) (config : Config) (choice : LimitChoice) : Build Plan :=
  if q.shape = .scalar then pure q.table.root
  else q.table.root.withLimit (config.defaultLimit.map (·.val.toNat)) choice

/-- Compiling step by step. -/
theorem compile_eq (q : Query) (capabilities : Capabilities) (config : Config)
    (choice : LimitChoice) : q.compile capabilities config choice =
      if q.table.root.hasFullJoin && !capabilities.fullJoin then
        Build.ofResult (.error (.plan .noFullJoin))
      else do
        let root ← q.rootFor config choice
        let sql ← Build.ofResult (capabilities.dialect.render .statement root)
        let plan ← Build.ofResult (OperatorPlan.ofPlan root)
        return ⟨sql, plan, root.schema, q.shape, root.rootLimit?⟩ := by
  unfold compile rootFor
  split
  · rfl
  · split <;> rfl

theorem cutOf_of_rootFor {root : Plan} (h : (q.rootFor config choice).Gives ref root next) :
    q.table.root.CutOf root := by
  unfold rootFor at h
  split at h
  · obtain ⟨rfl, -⟩ := Build.gives_pure_iff.mp h
    exact .self
  · exact Plan.cutOf_of_withLimit h

theorem compiles_of_compile (h : (q.compile capabilities config choice).Gives ref c next) :
    ∃ root, c.Compiles capabilities q root := by
  rw [compile_eq] at h
  split at h
  · cases (Build.gives_ofResult_iff.mp h).1
  · obtain ⟨root, mid, hroot, h⟩ := Build.gives_bind_iff.mp h
    obtain ⟨sql, _, hsql, h⟩ := Build.gives_bind_iff.mp h
    obtain ⟨plan, _, hplan, h⟩ := Build.gives_bind_iff.mp h
    obtain ⟨hsql, -⟩ := Build.gives_ofResult_iff.mp hsql
    obtain ⟨hplan, -⟩ := Build.gives_ofResult_iff.mp hplan
    obtain ⟨rfl, -⟩ := Build.gives_pure_iff.mp h
    have hcut := cutOf_of_rootFor hroot
    exact ⟨root, hcut, hsql, hplan, hcut.schema_eq, rfl⟩

/-- Compiling fails where the backend lacks full joins, or with an error of queries. -/
theorem failsWith_compile (q : Query) (capabilities : Capabilities) (config : Config)
    (choice : LimitChoice) : (q.compile capabilities config choice).FailsWith fun e =>
      e = .plan .noFullJoin ∨ e.OfQuery := by
  rw [compile_eq]
  split
  · exact Build.failsWith_ofResult (Result.failsWith_error.mpr (.inl rfl))
  · have hroot : (q.rootFor config choice).FailsWith fun e =>
        e = .plan .noFullJoin ∨ e.OfQuery := by
      unfold rootFor
      split
      · exact Build.failsWith_pure _
      · exact Plan.failsWith_withLimit _ _ _
    refine Build.failsWith_bind hroot fun _ root _ _ => ?_
    have hsql := Sql.Dialect.failsWith_render capabilities.dialect .statement root
    have hplan := OperatorPlan.failsWith_ofPlan root
    refine Build.failsWith_bind (Build.failsWith_ofResult fun e he => .inr (hsql e he)) ?_
    intro _ sql _ _
    refine Build.failsWith_bind (Build.failsWith_ofResult fun e he => .inr (hplan e he)) ?_
    exact fun _ plan _ _ => Build.failsWith_pure _

end Query

end TableQuery
