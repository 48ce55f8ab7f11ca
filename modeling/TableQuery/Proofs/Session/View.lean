import TableQuery.Proofs.Join.Outputs
import TableQuery.Proofs.Session.Project
import TableQuery.Proofs.Session.Sharing

/-! # Views

A view of a table is a projection to all of its columns, under a reference of its own. On a batch
that is laid out by the schema of the table this projection is the identity, without columns too
(`Batch.project_columns`), so that the view and the table are answered alike (`Table.answer_view`).

A join of a table with itself puts a view on its right side. Where it is on pairs of columns, the
references of the two sides occur in nothing but the aliases of the SQL that is written for it
(`Session.batchOf_join_view`): it does not matter whether the join makes the view or the caller. The
main statement is `Table.Built.execute_view`. -/

namespace TableQuery

/-! ### All columns of a schema -/

/-- The values of a row are those of its columns by their names. -/
theorem Schema.map_valueAt_names {s : Schema} {row : Row} (h : row.length = s.size) :
    s.names.map (s.valueAt row) = row := by
  refine List.ext_getElem? fun i => ?_
  rw [List.getElem?_map, names, List.getElem?_map]
  cases hi : s.fields[i]? with
  | none =>
    rw [List.getElem?_eq_none_iff] at hi
    rw [List.getElem?_eq_none (h ▸ hi)]
    rfl
  | some field =>
    obtain ⟨name, t⟩ := field
    have hlt : i < row.length := h ▸ (List.getElem?_eq_some_iff.mp hi).1
    rw [Option.map_some, Option.map_some, valueAt_of_getElem? hi, List.getElem?_eq_getElem hlt,
      List.getD_eq_getElem _ _ hlt]

/-- Columns of a schema are resolved, and read where their names stand. -/
theorem Expr.exists_resolveAll_columns {s : Schema} : ∀ {names : List String}, names ⊆ s.names →
    ∃ xs, resolveAll (Scope.single s) (names.map col) = .ok xs ∧ xs.length = names.length ∧
      ∀ row, RowExpr.evalAll row xs = .ok (names.map (s.valueAt row))
  | [], _ => ⟨[], rfl, rfl, fun _ => rfl⟩
  | name :: names, h => by
    obtain ⟨hname, hnames⟩ := List.cons_subset.mp h
    obtain ⟨t, ht⟩ := Schema.contains_iff_type?.mp (Schema.contains_iff_mem_names.mpr hname)
    obtain ⟨x, hx, -, hxv⟩ := resolve_column_eval none (Schema.typeOf_eq_ok_iff.mpr ht)
    obtain ⟨xs, hxs, hlength, hxsv⟩ := exists_resolveAll_columns hnames
    refine ⟨x :: xs, ?_, congrArg (· + 1) hlength, fun row => ?_⟩
    · change resolveAll (Scope.single s) (column none name :: names.map col) = _
      rw [resolveAll, hx, Result.ok_bind, hxs]
      rfl
    · rw [RowExpr.evalAll, hxv, Result.ok_bind, hxsv]
      rfl

/-- **All columns of a schema** give a batch that is laid out by it as it was. -/
theorem Batch.project_columns {s : Schema} {b : Batch} (h : b.LaidOut s) {xs : List RowExpr}
    (hlength : xs.length = s.names.length)
    (heval : ∀ row, RowExpr.evalAll row xs = .ok (s.names.map (s.valueAt row))) :
    b.project xs s.types = .ok b := by
  have htypes : s.types.length = xs.length := by
    rw [hlength, Schema.types, Schema.names, List.length_map, List.length_map]
  refine (project_eq_ok_iff htypes).mpr ⟨b.rows, ?_, by rw [← h.types]⟩
  have hrows : ∀ r ∈ b.rows, RowExpr.evalAll r xs = .ok (id r) := fun r hr => by
    rw [heval, Schema.map_valueAt_names (h.length_eq hr), id]
  rw [Result.mapM_eq_ok_map hrows, List.map_id]

/-! ### Answers of views -/

namespace Table

variable {t u v : Table} {ref next : TableRef} {s : Session}

theorem gives_view_iff : t.view.Gives ref v next ↔
    v = ⟨.node (.project (t.schema.names.map Expr.col)) ref t.schema [t.root], t.suffixes⟩ ∧
      next = ⟨ref.index + 1⟩ := Sound.gives_derive_iff

/-- **A view has the rows of its table.** -/
theorem Built.batchOf_view (h : Built next t) (hs : s.store.Reachable)
    (hstep : t.root.InStep s.store) (ref : TableRef) :
    s.batchOf (.node (.project (t.schema.names.map Expr.col)) ref t.schema [t.root]) =
      s.batchOf t.root := by
  obtain ⟨xs, hxs, hlength, heval⟩ :=
    Expr.exists_resolveAll_columns (List.Subset.refl t.schema.names)
  have hnone : Expr.hasWindowAny (t.schema.names.map Expr.col) = false :=
    Expr.hasWindowAny_eq_false_iff.mpr (List.forall_mem_map.mpr fun _ _ => rfl)
  rw [Session.batchOf_project h.sound.checked hnone hxs]
  cases hb : s.batchOf t.root with
  | error e => rfl
  | ok b => exact Batch.project_columns (h.laidOut_of_batchOf hs hstep hb) hlength heval

/-- A view answers what its table does. -/
theorem Built.answer_view (h : Built next t) (hs : s.store.Reachable)
    (hstep : t.root.InStep s.store) (shape : ResultShape) (ref : TableRef) :
    s.answer shape (.node (.project (t.schema.names.map Expr.col)) ref t.schema [t.root]) =
      s.answer shape t.root := by
  rw [Session.answer, Session.answer, h.batchOf_view hs hstep]
  rfl

end Table

/-! ### Joins with a view -/

/-- A join without a residual is rendered if its sides are. -/
theorem Sql.Dialect.render_join (d : Dialect) (form : Form) {j : Join} (hj : j.residual = none)
    {left right right' : Plan}
    (hright : (d.render .source right).FailsAlike (d.render .source right')) (ref ref' : TableRef)
    (schema : Schema) : (d.render form (.node (.join j) ref schema [left, right])).FailsAlike
      (d.render form (.node (.join j) ref' schema [left, right'])) := by
  have hpredicate : ∀ right, ∃ on, d.joinPredicate j left right = .ok on := fun right => by
    rw [joinPredicate, hj]
    exact ⟨_, rfl⟩
  obtain ⟨on, hon⟩ := hpredicate right
  obtain ⟨on', hon'⟩ := hpredicate right'
  rw [render, render]
  simp only [hon, hon', Result.ok_bind]
  refine .bind_congr fun leftSource => ?_
  exact ((hright.bind_left fun _ => ⟨_, rfl⟩).symm.bind_left fun _ => ⟨_, rfl⟩).symm

namespace Session

variable {s : Session}

/-- **The references of a join without a residual** do not matter to its rows. -/
theorem batchOf_join_view {j : Join} (hj : j.residual = none) (exprs : List Expr) (left c : Plan)
    (inner schema : Schema) (own own' ref ref' : TableRef) :
    s.batchOf (.node (.join j) ref schema [left, .node (.project exprs) own inner [c]]) =
      s.batchOf (.node (.join j) ref' schema [left, .node (.project exprs) own' inner [c]]) := by
  have hfull : ∀ own ref, Plan.hasFullJoin
      (.node (.join j) ref schema [left, .node (.project exprs) own inner [c]]) =
        ((j.kind == .full) || (left.hasFullJoin || c.hasFullJoin)) := fun own ref => by
    simp [Plan.hasFullJoin, Plan.nodes, Plan.nodesOfAll, Plan.op]
  have hplan : ∀ own ref, OperatorPlan.ofPlan
      (.node (.join j) ref schema [left, .node (.project exprs) own inner [c]]) =
        OperatorPlan.ofPlan
          (.node (.join j) ref' schema [left, .node (.project exprs) own' inner [c]]) := by
    intro own ref
    have hresolve : j.resolve left (.node (.project exprs) own inner [c]) =
        j.resolve left (.node (.project exprs) own' inner [c]) := by
      rw [Join.resolve, Join.resolve, hj]
      rfl
    rw [OperatorPlan.ofPlan, OperatorPlan.ofPlan, OperatorPlan.lower, OperatorPlan.lower, hresolve]
    rfl
  let d := s.capabilities.dialect
  have hright : (d.render .source (.node (.project exprs) own inner [c])).FailsAlike
      (d.render .source (.node (.project exprs) own' inner [c])) := fun e =>
    (d.render_project .source .source own inner c exprs e).trans
      (d.render_project .source .source own' inner c exprs e).symm
  rw [batchOf, batchOf, hfull, hfull, hplan,
    (d.render_join .statement hj hright ref ref' schema).bind_eq]

/-- Queries that are answered alike are executed alike, if they have no limit at the root. -/
theorem result_execute_congr {t u : Table} {shape : ResultShape}
    (ht : ∀ m k, t.root.op ≠ .limit m k) (hu : ∀ m k, u.root.op ≠ .limit m k)
    (h : s.answer shape t.root = s.answer shape u.root) (choice : LimitChoice) :
    (execute ⟨t, shape⟩ choice).result s = (execute ⟨u, shape⟩ choice).result s := by
  by_cases hshape : shape = .scalar
  · rw [result_execute_eq_answer (Query.gives_rootFor_scalar hshape _ choice _),
      result_execute_eq_answer (Query.gives_rootFor_scalar hshape _ choice _)]
    exact h
  · rw [result_execute_count hshape ht, result_execute_count hshape hu]
    dsimp only
    rw [h]

/-- A query is answered as it stands where its caller sets no bound. -/
theorem result_execute_of_no_count {q : Query} {choice : LimitChoice}
    (h : choice.count? (s.config.defaultLimit.map (·.val.toNat)) = none) :
    (execute q choice).result s = s.answer q.shape q.table.root := by
  suffices hroot : (q.rootFor s.config choice).Gives s.nextRef q.table.root s.nextRef from
    result_execute_eq_answer hroot
  cases choice with
  | rows n => cases h
  | unbounded => exact q.gives_rootFor_unbounded s.config s.nextRef
  | default =>
    have hdefault : s.config.defaultLimit.map (·.val.toNat) = none := h
    obtain ⟨⟨⟨op, own, schema, children⟩, suffixes⟩, shape⟩ := q
    rw [Query.rootFor, hdefault]
    split
    · exact Build.gives_pure_iff.mpr ⟨rfl, rfl⟩
    · cases op <;> exact Build.gives_pure_iff.mpr ⟨rfl, rfl⟩

end Session

/-! ### Tables joined with themselves -/

/-- The references of a join on pairs of columns do not matter to its plan. -/
theorem JoinInputs.plan_columns_congr (inputs : JoinInputs) (rightRef : TableRef)
    (selfRef : Option TableRef) (pairs : List (String × String)) (kind : JoinKind) :
    ({ inputs with rightRef, selfRef } : JoinInputs).plan (.columns pairs) kind =
      inputs.plan (.columns pairs) kind := rfl

namespace Table

variable {t u v right : Table} {ref next r : TableRef} {predicate : JoinPredicate} {kind : JoinKind}
  {suffixes : JoinSuffixes}

/-- A join of two tables with references of their own. -/
theorem gives_joinWith_iff (h : t.ref ≠ right.ref) :
    (t.joinWith right predicate kind suffixes).Gives r u next ↔ ∃ p : Join × Schema,
      (⟨t.ref, t.schema, right.ref, right.schema, suffixes, none⟩ : JoinInputs).plan predicate
          kind = .ok p ∧
        u = ⟨.node (.join p.1) r p.2 [t.root, right.root], t.suffixes⟩ ∧ next = ⟨r.index + 1⟩ := by
  have hsame : t.same right = false := by simpa [Table.same] using h
  rw [joinWith, hsame]
  exact Sound.gives_join_iff

/-- A join of a table with itself has a view on its right side. -/
theorem gives_joinWith_self_iff :
    (t.joinWith t predicate kind suffixes).Gives r u next ↔ ∃ p : Join × Schema,
      (⟨t.ref, t.schema, r, t.schema, suffixes, some t.ref⟩ : JoinInputs).plan predicate kind =
          .ok p ∧
        u = ⟨.node (.join p.1) ⟨r.index + 1⟩ p.2 [t.root,
          .node (.project (t.schema.names.map Expr.col)) r t.schema [t.root]], t.suffixes⟩ ∧
        next = ⟨r.index + 1 + 1⟩ := by
  have hsame : t.same t = true := by simp [Table.same]
  rw [joinWith, hsame]
  dsimp only
  rw [if_pos rfl, Build.gives_bind_iff]
  constructor
  · rintro ⟨v, mid, hv, h⟩
    obtain ⟨rfl, rfl⟩ := gives_view_iff.mp hv
    exact Sound.gives_join_iff.mp h
  · intro h
    exact ⟨_, _, gives_view_iff.mpr ⟨rfl, rfl⟩, Sound.gives_join_iff.mpr h⟩

/-- **Executing a view** gives what executing its table does, where nobody wants fewer rows than
there are and where the table has no limit at its root; otherwise it gives the first of them. -/
theorem Built.result_execute_view (h : Built ref t) (hv : t.view.Gives ref v next) {s : Session}
    (hs : s.store.Reachable) (hstep : t.root.InStep s.store) (shape : ResultShape)
    (choice : LimitChoice) :
    let count := choice.count? (s.config.defaultLimit.map (·.val.toNat))
    ((shape = .scalar ∨ count = none ∨ ∀ m k, t.root.op ≠ .limit m k) →
      (Session.execute ⟨v, shape⟩ choice).result s =
        (Session.execute ⟨t, shape⟩ choice).result s) ∧
    (shape ≠ .scalar → ∀ n, count = some n → (Session.execute ⟨v, shape⟩ choice).result s =
      ((Session.execute ⟨t, shape⟩ .unbounded).result s).map (·.mapRows (·.take n))) := by
  obtain ⟨hroot, -⟩ := gives_view_iff.mp hv
  have hanswer : s.answer shape v.root = s.answer shape t.root := by
    rw [hroot]
    exact h.answer_view hs hstep shape ref
  have hview : ∀ m k, v.root.op ≠ .limit m k := by
    rw [hroot]
    exact fun _ _ => nofun
  refine ⟨?_, fun hshape n hcount => ?_⟩
  · rintro (hshape | hcount | ht)
    · rw [Session.result_execute_eq_answer (Query.gives_rootFor_scalar hshape _ choice _),
        Session.result_execute_eq_answer (Query.gives_rootFor_scalar hshape _ choice _)]
      exact hanswer
    · rw [Session.result_execute_of_no_count hcount, Session.result_execute_of_no_count hcount]
      exact hanswer
    · exact Session.result_execute_congr hview ht hanswer choice
  · rw [Session.result_execute_count (q := ⟨v, shape⟩) hshape hview, hcount,
      Session.result_execute_unbounded]
    dsimp only
    rw [hanswer]

theorem Built.ref_ne_view (h : Built ref t) (hv : t.view.Gives ref v next) : t.ref ≠ v.ref := by
  obtain ⟨hroot, -⟩ := gives_view_iff.mp hv
  intro he
  have hlt := h.sound.ref_lt
  rw [← Table.ref, he, hroot] at hlt
  exact Nat.lt_irrefl ref.index hlt

/-- **A table joined with itself and with its view** has one plan: that of the pairs of columns over
the schema of the table. -/
theorem Built.gives_joinWith_view_iff (h : Built ref t) (hv : t.view.Gives ref v next)
    (pairs : List (String × String)) (kind : JoinKind) (suffixes : JoinSuffixes) (r : TableRef)
    {r' next' : TableRef} :
    (t.joinWith v (.columns pairs) kind suffixes).Gives r' u next' ↔ ∃ p : Join × Schema,
      (⟨t.ref, t.schema, r, t.schema, suffixes, some t.ref⟩ : JoinInputs).plan (.columns pairs)
          kind = .ok p ∧
        u = ⟨.node (.join p.1) r' p.2 [t.root, v.root], t.suffixes⟩ ∧ next' = ⟨r'.index + 1⟩ := by
  obtain ⟨hroot, -⟩ := gives_view_iff.mp hv
  let inputs : JoinInputs := ⟨t.ref, t.schema, v.ref, v.schema, suffixes, none⟩
  have hplan : (⟨t.ref, t.schema, r, t.schema, suffixes, some t.ref⟩ : JoinInputs).plan
      (.columns pairs) kind = inputs.plan (.columns pairs) kind := by
    rw [← inputs.plan_columns_congr r (some t.ref)]
    simp only [inputs, hroot]
    rfl
  rw [hplan]
  exact gives_joinWith_iff (h.ref_ne_view hv)

/-- **A view is the same relation as its table.** For a table that calls make and a view of it: over
a store that calls have made and that the plan is in step with, executing the view gives what
executing the table does, its rows, their order and their types or its error, where nobody wants
fewer rows than there are and where the table has no limit at its root. A limit at the root, which
the wish for a number of rows would replace, stands below the view: the first rows of the table are
taken. And over every store the join of the table with itself on pairs of columns can be built
exactly if the join with the view can, under the same schema, and is executed to the same result. -/
theorem Built.execute_view (h : Built ref t) (hv : t.view.Gives ref v next) :
    (∀ s : Session, s.store.Reachable → t.root.InStep s.store → ∀ shape choice,
      let count := choice.count? (s.config.defaultLimit.map (·.val.toNat))
      ((shape = .scalar ∨ count = none ∨ ∀ m k, t.root.op ≠ .limit m k) →
        (Session.execute ⟨v, shape⟩ choice).result s =
          (Session.execute ⟨t, shape⟩ choice).result s) ∧
      (shape ≠ .scalar → ∀ n, count = some n → (Session.execute ⟨v, shape⟩ choice).result s =
        ((Session.execute ⟨t, shape⟩ .unbounded).result s).map (·.mapRows (·.take n)))) ∧
    ∀ pairs kind suffixes r r',
      ((∃ u next, (t.joinWith t (.columns pairs) kind suffixes).Gives r u next) ↔
        ∃ u next, (t.joinWith v (.columns pairs) kind suffixes).Gives r' u next) ∧
      ∀ u u' next next', (t.joinWith t (.columns pairs) kind suffixes).Gives r u next →
        (t.joinWith v (.columns pairs) kind suffixes).Gives r' u' next' →
        u.schema = u'.schema ∧ ∀ (s : Session) shape choice,
          (Session.execute ⟨u, shape⟩ choice).result s =
            (Session.execute ⟨u', shape⟩ choice).result s := by
  obtain ⟨hroot, -⟩ := gives_view_iff.mp hv
  refine ⟨fun s hs hstep shape choice => h.result_execute_view hv hs hstep shape choice,
    fun pairs kind suffixes r r' => ?_⟩
  have hview := fun u next => (h.gives_joinWith_view_iff hv pairs kind suffixes r :
    (t.joinWith v (.columns pairs) kind suffixes).Gives r' u next ↔ _)
  refine ⟨⟨?_, ?_⟩, fun u u' next next' hu hu' => ?_⟩
  · rintro ⟨u, next, hu⟩
    obtain ⟨p, hp, -⟩ := gives_joinWith_self_iff.mp hu
    exact ⟨_, _, (hview _ _).mpr ⟨p, hp, rfl, rfl⟩⟩
  · rintro ⟨u, next, hu⟩
    obtain ⟨p, hp, -⟩ := (hview u next).mp hu
    exact ⟨_, _, gives_joinWith_self_iff.mpr ⟨p, hp, rfl, rfl⟩⟩
  · obtain ⟨⟨j, schema⟩, hp, rfl, -⟩ := gives_joinWith_self_iff.mp hu
    obtain ⟨p', hp', rfl, -⟩ := (hview u' next').mp hu'
    obtain rfl : (j, schema) = p' := Except.ok.inj (hp.symm.trans hp')
    obtain ⟨-, hsplit, -, -⟩ := JoinInputs.plan_eq_ok_iff.mp hp
    obtain ⟨-, -, hresidual⟩ := JoinInputs.splitPredicate_columns_iff.mp hsplit
    refine ⟨rfl, fun s shape choice => ?_⟩
    have hlimit : ∀ own children m k, (Plan.node (.join j) own schema children).op ≠
        .limit m k := by
      intro own children m k h
      cases h
    refine Session.result_execute_congr (hlimit _ _) (hlimit _ _) ?_ choice
    rw [Session.answer, Session.answer, hroot]
    dsimp only
    rw [Session.batchOf_join_view hresidual _ _ _ _ _ r ref _ r']
    rfl

/-- The first row of a view of two rows, and a table of two rows joined with itself, which is
answered as its join with the view is. -/
theorem Built.execute_view_joined :
    let n : Int → Scalar := fun v => .int .int64 (Bounded.clamp _ _ (by decide) v)
    let stored : Schema := ⟨[("a", .int64), ("b", .utf8)], by decide⟩
    let rows : { b : Batch // b.Rectangular } :=
      ⟨⟨stored.types, [[n 1, .utf8 "x"], [n 2, .null], [n 3, .utf8 "y"]]⟩,
        List.forall_mem_cons.mpr ⟨rfl, List.forall_mem_cons.mpr
          ⟨rfl, List.forall_mem_singleton.mpr rfl⟩⟩⟩
    let s := (Session.start ⟨true, .ansi⟩).runCalls [.create "t" stored (some rows) .error]
    let scanned : Plan := .node (.scan "t") ⟨0⟩ stored []
    let t : Table := ⟨.node (.limit (some 2) 0) ⟨1⟩ stored [scanned], .standard⟩
    let v : Table := ⟨.node (.project [.col "a", .col "b"]) ⟨2⟩ stored [t.root], .standard⟩
    let joined : Schema := ⟨[("a", .int64), ("b", .utf8), ("b_right", .utf8)], by decide⟩
    Built ⟨2⟩ t ∧ t.view.Gives ⟨2⟩ v ⟨3⟩ ∧ s.store.Reachable ∧ t.root.InStep s.store ∧
      (Session.execute ⟨v, .table⟩ (.rows 1)).result s =
        .ok ⟨stored, .batch ⟨stored.types, [[n 1, .utf8 "x"]]⟩⟩ ∧
      ∃ u next, (t.joinWith t (.columns [("a", "a")]) .left .standard).Gives ⟨3⟩ u next ∧
        u.schema = joined ∧ (Session.execute ⟨u, .table⟩ .unbounded).result s = .ok ⟨joined, .batch
          ⟨joined.types, [[n 1, .utf8 "x", .utf8 "x"], [n 2, .null, .null]]⟩⟩ := by
  intro n stored rows s scanned t v joined
  have hscan : (Table.scan "t" stored).Gives ⟨0⟩ ⟨scanned, .standard⟩ ⟨1⟩ := rfl
  have hlimit : (Table.limitOffset ⟨scanned, .standard⟩ (some 2) 0).Gives ⟨1⟩ t ⟨2⟩ := rfl
  have hbuilt : Built ⟨2⟩ t := .limitOffset (.scan hscan) hlimit
  have hv : t.view.Gives ⟨2⟩ v ⟨3⟩ := rfl
  have hs : s.store.Reachable := Session.runCalls_reachable .empty _
  have hstep : t.root.InStep s.store := by
    intro q hq
    rcases Plan.mem_nodes_unary.mp hq with rfl | hq
    · trivial
    · rw [List.mem_singleton.mp hq]
      exact ⟨_, rfl, rfl⟩
  obtain ⟨hexecute, hjoin⟩ := hbuilt.execute_view hv
  have hall : (Session.execute ⟨t, .table⟩ .unbounded).result s =
      .ok ⟨stored, .batch ⟨stored.types, [[n 1, .utf8 "x"], [n 2, .null]]⟩⟩ := rfl
  obtain ⟨-, hfirst⟩ := hexecute s hs hstep .table (.rows 1)
  obtain ⟨hgives, hsame⟩ := hjoin [("a", "a")] .left .standard ⟨3⟩ ⟨3⟩
  obtain ⟨u', hu', hschema, hresult⟩ : ∃ u', (t.joinWith v (.columns [("a", "a")]) .left
      .standard).Gives ⟨3⟩ u' ⟨4⟩ ∧ u'.schema = joined ∧
        (Session.execute ⟨u', .table⟩ .unbounded).result s = .ok ⟨joined, .batch ⟨joined.types,
          [[n 1, .utf8 "x", .utf8 "x"], [n 2, .null, .null]]⟩⟩ := ⟨_, rfl, rfl, by cbv⟩
  obtain ⟨u, next, hu⟩ := hgives.mpr ⟨u', ⟨4⟩, hu'⟩
  obtain ⟨hschemas, hresults⟩ := hsame u u' next ⟨4⟩ hu hu'
  refine ⟨hbuilt, hv, hs, hstep, ?_, u, next, hu, hschemas.trans hschema,
    (hresults s .table .unbounded).trans hresult⟩
  rw [hfirst (by decide) 1 rfl, hall]
  rfl

end Table

end TableQuery
