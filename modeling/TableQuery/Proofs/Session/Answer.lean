import TableQuery.Proofs.Operator.Execution
import TableQuery.Proofs.Session.Compile
import TableQuery.Proofs.Sql.Rendering

/-! # Answers of plans

What a session answers to a plan as it stands, with nothing cut off: the plan is checked against the
backend, rendered, lowered and run (`Session.answer`). It is a function of the plan, the store and
the backend alone. Executing a query is answering the plan that its limit leaves of it
(`result_execute_eq_answer`), so that executions under different limits and settings are compared
through the answers of plans.

A node over one plan is answered from the rows of that plan (`batchOf_unary`), and fails with its
errors: nodes over one plan are rendered and lowered if the plan is. -/

namespace TableQuery

namespace QueryResult

/-- The result with other rows, unless it is a single value. -/
def mapRows (f : List Row → List Row) (r : QueryResult) : QueryResult :=
  match r.output with
  | .batch b => ⟨r.schema, .batch ⟨b.types, f b.rows⟩⟩
  | .scalar v => ⟨r.schema, .scalar v⟩

theorem outputOf_of_ne {shape : ResultShape} (h : shape ≠ .scalar) (b : Batch) :
    outputOf shape b = .ok (.batch b) := if_neg h

/-- Every result has as many rows as the batch that it was made of. -/
theorem numRows_eq_of_outputOf {shape : ResultShape} {b : Batch} {o : QueryOutput} {schema : Schema}
    (h : outputOf shape b = .ok o) : numRows ⟨schema, o⟩ = b.numRows := by
  unfold outputOf at h
  split at h
  · split at h
    · rename_i hrows
      cases h
      rw [Batch.numRows, hrows]
      rfl
    · cases h
  · cases h
    rfl

end QueryResult

/-! ### The plan that is left of a query -/

theorem Plan.withLimit_of_no_limit {p : Plan} (h : ∀ m k, p.op ≠ .limit m k)
    (defaultLimit : Option Nat) (n : Nat) : p.withLimit defaultLimit (.rows n) = p.cut n ∧
      p.withLimit (some n) .default = p.cut n := by
  obtain ⟨op, ref, schema, children⟩ := p
  cases op with
  | limit m k => exact absurd rfl (h m k)
  | _ => exact ⟨rfl, rfl⟩

namespace Query

variable {q : Query} {config : Config} {n : Nat}

/-- Some plan is always left. -/
theorem exists_gives_rootFor (q : Query) (config : Config) (choice : LimitChoice)
    (ref : TableRef) : ∃ root next, (q.rootFor config choice).Gives ref root next := by
  have hfails : (q.rootFor config choice).FailsWith fun _ => False := by
    unfold rootFor
    split
    · exact Build.failsWith_pure _
    · exact Plan.failsWith_withLimit _ _ _
  cases hrun : ((q.rootFor config choice).run.run ref).run with
  | mk r next =>
    cases r with
    | ok root => exact ⟨root, next, hrun⟩
    | error e => exact (hfails ref e (by rw [hrun])).elim

theorem gives_rootFor_scalar (h : q.shape = .scalar) (config : Config) (choice : LimitChoice)
    (ref : TableRef) : (q.rootFor config choice).Gives ref q.table.root ref := by
  rw [rootFor, if_pos h]
  exact Build.gives_pure_iff.mpr ⟨rfl, rfl⟩

theorem gives_rootFor_unbounded (q : Query) (config : Config) (ref : TableRef) :
    (q.rootFor config .unbounded).Gives ref q.table.root ref := by
  unfold rootFor
  split <;> exact Build.gives_pure_iff.mpr ⟨rfl, rfl⟩

section
variable (hshape : q.shape ≠ .scalar)
include hshape

/-- A number of rows cuts a plan that has no limit at its root. -/
theorem gives_rootFor_rows (hroot : ∀ m k, q.table.root.op ≠ .limit m k) (config : Config)
    (n : Nat) (ref : TableRef) : (q.rootFor config (.rows n)).Gives ref
      (.node (.limit (some n) 0) ref q.table.root.schema [q.table.root]) ⟨ref.index + 1⟩ := by
  rw [rootFor, if_neg hshape, (Plan.withLimit_of_no_limit hroot _ n).1]
  exact Build.gives_node_iff.mpr ⟨rfl, rfl⟩

/-- A number of rows takes the place of the one at the root. -/
theorem gives_rootFor_rows_limit {m : Option Nat} {k : Nat} {own : TableRef} {schema : Schema}
    {children : List Plan} (hroot : q.table.root = .node (.limit m k) own schema children)
    (config : Config) (n : Nat) (ref : TableRef) : (q.rootFor config (.rows n)).Gives ref
      (.node (.limit (some n) k) ref schema children) ⟨ref.index + 1⟩ := by
  rw [rootFor, if_neg hshape, hroot]
  exact Build.gives_node_iff.mpr ⟨rfl, rfl⟩

/-- The default limit cuts a plan that has no limit at its root. -/
theorem gives_rootFor_default (hroot : ∀ m k, q.table.root.op ≠ .limit m k)
    (hdefault : config.defaultLimit.map (·.val.toNat) = some n) (ref : TableRef) :
    (q.rootFor config .default).Gives ref
      (.node (.limit (some n) 0) ref q.table.root.schema [q.table.root]) ⟨ref.index + 1⟩ := by
  rw [rootFor, if_neg hshape, hdefault, (Plan.withLimit_of_no_limit hroot none n).2]
  exact Build.gives_node_iff.mpr ⟨rfl, rfl⟩

end

/-- The default limit leaves a limit at the root as it is. -/
theorem gives_rootFor_default_limit {m : Option Nat} {k : Nat}
    (hroot : q.table.root.op = .limit m k) (config : Config) (ref : TableRef) :
    (q.rootFor config .default).Gives ref q.table.root ref := by
  obtain ⟨⟨⟨op, own, schema, children⟩, suffixes⟩, shape⟩ := q
  cases hroot
  unfold rootFor
  split <;> exact Build.gives_pure_iff.mpr ⟨rfl, rfl⟩

/-- A limit at the root stays, unless another number of rows is wanted. -/
theorem gives_rootFor_of_limit {m : Option Nat} {k : Nat} {choice : LimitChoice}
    (hroot : q.table.root.op = .limit m k) (hchoice : ∀ n, choice ≠ .rows n) (config : Config)
    (ref : TableRef) : (q.rootFor config choice).Gives ref q.table.root ref := by
  cases choice with
  | default => exact gives_rootFor_default_limit hroot config ref
  | rows n => exact absurd rfl (hchoice n)
  | unbounded => exact q.gives_rootFor_unbounded config ref

end Query

namespace Session

open SessionStep

variable {s s' : Session} {q : Query} {choice : LimitChoice}

/-! ### Plans as they stand -/

/-- **A plan compiled as it stands.** -/
def compileRoot (s : Session) (shape : ResultShape) (p : Plan) : Result CompiledQuery :=
  if p.hasFullJoin && !s.capabilities.fullJoin then .error (.plan .noFullJoin)
  else do
    let sql ← s.capabilities.dialect.render .statement p
    let op ← OperatorPlan.ofPlan p
    return ⟨sql, op, p.schema, shape, p.rootLimit?⟩

/-- The rows of a plan as it stands. It has to be rendered, though its SQL is not looked at. -/
def batchOf (s : Session) (p : Plan) : Result Batch :=
  if p.hasFullJoin && !s.capabilities.fullJoin then .error (.plan .noFullJoin)
  else do
    let _ ← s.capabilities.dialect.render .statement p
    let op ← OperatorPlan.ofPlan p
    op.run s.store.provider

/-- **What a plan answers as it stands**: its rows or its single value. -/
def answer (s : Session) (shape : ResultShape) (p : Plan) : Result QueryResult := do
  let b ← s.batchOf p
  if b.numColumns ≠ p.schema.size then .error (.result (.columnCount p.schema.size b.numColumns))
  else return ⟨p.schema, ← QueryResult.outputOf shape b⟩

/-- Compiling is a function of the backend. -/
theorem compileRoot_congr (hcapabilities : s.capabilities = s'.capabilities) (shape : ResultShape)
    (p : Plan) : s.compileRoot shape p = s'.compileRoot shape p := by
  rw [compileRoot, compileRoot, hcapabilities]

/-- Rows are a function of the store and the backend. -/
theorem batchOf_congr (hcapabilities : s.capabilities = s'.capabilities)
    (hstore : s.store = s'.store) (p : Plan) : s.batchOf p = s'.batchOf p := by
  rw [batchOf, batchOf, hcapabilities, hstore]

/-- Answers are a function of the store and the backend. -/
theorem answer_congr (hcapabilities : s.capabilities = s'.capabilities)
    (hstore : s.store = s'.store) (shape : ResultShape) (p : Plan) :
    s.answer shape p = s'.answer shape p := by
  rw [answer, answer, batchOf_congr hcapabilities hstore]

theorem compileRoot_eq_ok_iff {shape : ResultShape} {p : Plan} {c : CompiledQuery} :
    s.compileRoot shape p = .ok c ↔ (p.hasFullJoin && !s.capabilities.fullJoin) = false ∧
      s.capabilities.dialect.render .statement p = .ok c.sql ∧
      OperatorPlan.ofPlan p = .ok c.plan ∧ c.schema = p.schema ∧ c.shape = shape ∧
      c.limit = p.rootLimit? := by
  unfold compileRoot
  split
  · rename_i hfull
    rw [hfull]
    simp
  · rename_i hfull
    rw [Bool.not_eq_true] at hfull
    simp only [Result.bind_eq_ok_iff, hfull, true_and]
    constructor
    · rintro ⟨sql, hsql, plan, hplan, hc⟩
      cases hc
      exact ⟨hsql, hplan, rfl, rfl, rfl⟩
    · rintro ⟨hsql, hplan, hschema, hshape, hlimit⟩
      refine ⟨_, hsql, _, hplan, ?_⟩
      rw [← hschema, ← hshape, ← hlimit]
      rfl

/-- The rows are those that the compiled plan gives, whatever the shape of the result. -/
theorem batchOf_eq (s : Session) (shape : ResultShape) (p : Plan) :
    s.batchOf p = s.compileRoot shape p >>= fun c => c.plan.run s.store.provider := by
  unfold batchOf compileRoot
  split
  · rfl
  · cases s.capabilities.dialect.render .statement p with
    | error e => rfl
    | ok sql => cases OperatorPlan.ofPlan p <;> rfl

theorem answer_eq_ok_iff {shape : ResultShape} {p : Plan} {r : QueryResult} :
    s.answer shape p = .ok r ↔ ∃ b, s.batchOf p = .ok b ∧ b.numColumns = p.schema.size ∧
      r.schema = p.schema ∧ QueryResult.outputOf shape b = .ok r.output := by
  rw [answer, Result.bind_eq_ok_iff]
  refine exists_congr fun b => and_congr_right fun _ => ?_
  by_cases hsize : b.numColumns = p.schema.size
  · rw [if_neg (not_not.mpr hsize), Result.bind_eq_ok_iff]
    constructor
    · rintro ⟨o, ho, hr⟩
      cases hr
      exact ⟨hsize, rfl, ho⟩
    · rintro ⟨-, hschema, ho⟩
      exact ⟨_, ho, by rw [← hschema]; rfl⟩
  · rw [if_pos hsize]
    exact ⟨fun h => (nomatch h), fun h => absurd h.1 hsize⟩

/-! ### Queries are answered as the plans that are left of them -/

theorem result_compile_eq_compileRoot {root : Plan} {next : TableRef}
    (h : (q.rootFor s.config choice).Gives s.nextRef root next) :
    (compile q choice).result s = s.compileRoot q.shape root := by
  rw [result_compile, Query.compile_eq, compileRoot, (Query.cutOf_of_rootFor h).hasFullJoin_eq]
  split
  · rfl
  · rw [Build.run_bind_of_gives h]
    cases s.capabilities.dialect.render .statement root with
    | error e => rfl
    | ok sql => cases OperatorPlan.ofPlan root <;> rfl

/-- **A query gives what the plan answers that is left of it.** -/
theorem result_execute_eq_answer {root : Plan} {next : TableRef}
    (h : (q.rootFor s.config choice).Gives s.nextRef root next) :
    (execute q choice).result s = s.answer q.shape root := by
  rw [result_execute, result_compile_eq_compileRoot h, answer, batchOf_eq s q.shape]
  cases hc : s.compileRoot q.shape root with
  | error e => rfl
  | ok c =>
    obtain ⟨-, -, -, hschema, hshape, -⟩ := compileRoot_eq_ok_iff.mp hc
    rw [Result.ok_bind, Result.ok_bind, hschema, hshape]

/-! ### Nodes over one plan -/

/-- The rows of a node over one plan that is lowered on top of the plan. -/
theorem batchOf_of_ofPlan {op : Operation} {rop : Operator} {schema : Schema} {ref : TableRef}
    {c : Plan} (hop : op.readsOne = true)
    (hplan : OperatorPlan.ofPlan (.node op ref schema [c]) =
      OperatorPlan.ofPlan c >>= fun child => .ok (.node rop schema [child])) :
    s.batchOf (.node op ref schema [c]) =
      s.batchOf c >>= fun b => rop.run s.store.provider schema.types [b] := by
  have hrender := s.capabilities.dialect.render_unary .statement .statement ref schema c hop
  rw [batchOf, batchOf, Plan.hasFullJoin_unary hop, hrender.bind_eq, hplan]
  split
  · rfl
  · cases s.capabilities.dialect.render .statement c with
    | error e => rfl
    | ok sql =>
      cases OperatorPlan.ofPlan c with
      | error e => rfl
      | ok child => exact OperatorPlan.run_unary ..

/-- **The rows of a node over one plan** are computed from the rows of the plan. -/
theorem batchOf_unary {op : Operation} {rop : Operator} {schema : Schema}
    (hop : op.readsOne = true)
    (hnode : ∀ child, OperatorPlan.unaryNode op schema child =
      .ofResult (.ok (.node rop schema [child])))
    (ref : TableRef) (c : Plan) : s.batchOf (.node op ref schema [c]) =
      s.batchOf c >>= fun b => rop.run s.store.provider schema.types [b] :=
  batchOf_of_ofPlan hop (OperatorPlan.ofPlan_unary hop hnode ref c)

/-- Over a checked plan the node may look at the columns of the plan. -/
theorem batchOf_unary_of_checked {op : Operation} {rop : Operator} {schema : Schema} {c : Plan}
    (hop : op.readsOne = true) (hc : c.Checked)
    (hnode : ∀ child : OperatorPlan, child.schema = c.schema →
      OperatorPlan.unaryNode op schema child = .ofResult (.ok (.node rop schema [child])))
    (ref : TableRef) : s.batchOf (.node op ref schema [c]) =
      s.batchOf c >>= fun b => rop.run s.store.provider schema.types [b] :=
  batchOf_of_ofPlan hop (OperatorPlan.ofPlan_unary_of_checked hop hc hnode ref)

theorem batchOf_limit (n : Option Nat) (k : Nat) (ref : TableRef) (schema : Schema) (c : Plan) :
    s.batchOf (.node (.limit n k) ref schema [c]) = (s.batchOf c).map (·.slice k n) := by
  rw [batchOf_unary rfl fun _ => rfl]
  cases s.batchOf c <;> rfl

/-- **A limit takes a part of the rows of its input**, if the result is no single value. -/
theorem answer_limit {shape : ResultShape} (hshape : shape ≠ .scalar) (n k : Nat) (ref : TableRef)
    (c : Plan) : s.answer shape (.node (.limit (some n) k) ref c.schema [c]) =
      (s.answer shape c).map (·.mapRows fun rows => (rows.drop k).take n) := by
  rw [answer, answer, batchOf_limit]
  cases s.batchOf c with
  | error e => rfl
  | ok b =>
    change (if b.numColumns ≠ c.schema.size then _ else _) =
      Except.map _ (if b.numColumns ≠ c.schema.size then _ else _)
    rw [QueryResult.outputOf_of_ne hshape, QueryResult.outputOf_of_ne hshape]
    split <;> rfl

/-- No more rows come out than the limit at the root says. -/
theorem numRows_le_of_rootLimit? {p : Plan} {m : Nat} {b : Batch} (hm : p.rootLimit? = some m)
    (hb : s.batchOf p = .ok b) : b.numRows ≤ m := by
  obtain ⟨op, ref, schema, children⟩ := p
  cases op with
  | limit n k =>
    cases hm
    match children with
    | [c] =>
      rw [batchOf_limit] at hb
      obtain ⟨input, -, rfl⟩ := Result.map_eq_ok_iff.mp hb
      exact List.length_take_le _ _
    | [] | _ :: _ :: _ =>
      -- A limit that does not have one input is not lowered.
      rw [batchOf_eq s .table] at hb
      obtain ⟨c, hc, -⟩ := Result.bind_eq_ok_iff.mp hb
      obtain ⟨-, -, hplan, -⟩ := compileRoot_eq_ok_iff.mp hc
      cases hplan
  | _ => cases hm

end Session

end TableQuery
