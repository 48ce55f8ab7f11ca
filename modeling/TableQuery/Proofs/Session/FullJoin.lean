import TableQuery.Proofs.Session.Answer
import TableQuery.Proofs.Store.Invariant

/-! # Full joins that a backend lacks

A query is refused before anything else is done if a full join occurs in its plan, however deep, and
the backend has none (`fullJoin_refused`): the session stays as it was, so nothing has been stored,
run or reported. All other queries are compiled as for a backend that has full joins, and the error
about them comes from nowhere else. -/

namespace TableQuery

/-! ### Where a full join occurs -/

/-- **A full join occurs in a plan**: at its root or in one of the plans below. -/
inductive Plan.FullJoinOccurs : Plan → Prop
  | root {j : Join} {ref : TableRef} {schema : Schema} {children : List Plan} : j.kind = .full →
      FullJoinOccurs (.node (.join j) ref schema children)
  | input {op : Operation} {ref : TableRef} {schema : Schema} {children : List Plan} {c : Plan} :
      c ∈ children → FullJoinOccurs c → FullJoinOccurs (.node op ref schema children)

namespace Plan

theorem exists_of_mem_nodesOfAll {q : Plan} : ∀ {ps : List Plan}, q ∈ nodesOfAll ps →
    ∃ p ∈ ps, q ∈ p.nodes
  | p :: ps, h => by
    rw [nodesOfAll, List.mem_append] at h
    rcases h with h | h
    · exact ⟨p, List.mem_cons_self, h⟩
    · obtain ⟨p', hp', hq⟩ := exists_of_mem_nodesOfAll h
      exact ⟨p', List.mem_cons_of_mem p hp', hq⟩

/-- A node of a plan below a node that it is in. -/
theorem FullJoinOccurs.of_mem_nodes {q : Plan} (hq : q.FullJoinOccurs) :
    ∀ p : Plan, q ∈ p.nodes → p.FullJoinOccurs
  | .node op ref schema children, h => by
    rw [nodes] at h
    rcases List.mem_cons.mp h with rfl | h
    · exact hq
    · obtain ⟨c, hc, hmem⟩ := exists_of_mem_nodesOfAll h
      exact .input hc (hq.of_mem_nodes c hmem)

/-- **The check finds every full join.** -/
theorem hasFullJoin_iff {p : Plan} : p.hasFullJoin = true ↔ p.FullJoinOccurs := by
  rw [hasFullJoin, List.any_eq_true]
  constructor
  · rintro ⟨⟨op, ref, schema, children⟩, hmem, hop⟩
    cases op with
    | join j => exact FullJoinOccurs.of_mem_nodes (.root (beq_iff_eq.mp hop)) p hmem
    | _ => cases hop
  · intro h
    induction h with
    | root hkind => exact ⟨_, mem_nodes_self _, beq_iff_eq.mpr hkind⟩
    | input hc _ ih =>
      obtain ⟨q, hq, hop⟩ := ih
      exact ⟨q, mem_nodes_of_child hc hq, hop⟩

end Plan

/-! ### Queries that are refused -/

namespace Session

open SessionStep

variable {s : Session} {q : Query}

/-- Compiling is refused at once, which leaves the session as it was. -/
theorem compile_of_fullJoin (hfull : q.table.root.hasFullJoin = true)
    (hlacks : s.capabilities.fullJoin = false) (choice : LimitChoice) :
    (compile q choice).result s = .error (.plan .noFullJoin) ∧ (compile q choice).after s = s := by
  have hrefused : q.compile s.capabilities s.config choice =
      Build.ofResult (.error (.plan .noFullJoin)) := by
    rw [Query.compile_eq, hfull, hlacks]
    rfl
  have hbuild : compile q choice = (get >>= fun s =>
      build (q.compile s.capabilities s.config choice)) := rfl
  constructor
  · rw [result_compile, hrefused]
    rfl
  · rw [hbuild, after_bind (result_get s), after_get, hrefused]
    rfl

/-- Compiling a plan without a full join does not fail for the lack of one. -/
theorem failsWith_compile_of_no_fullJoin (hnone : q.table.root.hasFullJoin = false)
    (choice : LimitChoice) :
    ((compile q choice).result s).FailsWith Error.OfQuery := by
  obtain ⟨root, next, hroot⟩ := q.exists_gives_rootFor s.config choice s.nextRef
  rw [result_compile_eq_compileRoot hroot, compileRoot,
    (Query.cutOf_of_rootFor hroot).hasFullJoin_eq, hnone]
  have hsql := Sql.Dialect.failsWith_render s.capabilities.dialect .statement root
  simp [hsql, OperatorPlan.failsWith_ofPlan root]

/-- What a backend says of full joins is not asked for a plan without one. -/
theorem result_compile_congr_fullJoin (hnone : q.table.root.hasFullJoin = false)
    (choice : LimitChoice) : (compile q choice).result s =
      (compile q choice).result { s with capabilities := ⟨true, s.capabilities.dialect⟩ } := by
  rw [result_compile, result_compile, Query.compile_eq, Query.compile_eq, hnone]
  rfl

/-- **A full join is refused, never run in part**, where the backend has none: compiling and
executing a query whose plan has one, wherever it is, give the same error, and the session is left
as it was, with its tables and the queries that it has run. A query without a full join is compiled
as if the backend had them, and no error is about the lack of them. -/
theorem fullJoin_refused (hlacks : s.capabilities.fullJoin = false) (q : Query)
    (choice : LimitChoice) :
    (q.table.root.FullJoinOccurs → (Error.plan .noFullJoin).kind = .unsupported ∧
      (compile q choice).result s = .error (.plan .noFullJoin) ∧ (compile q choice).after s = s ∧
      (execute q choice).result s = .error (.plan .noFullJoin) ∧ (execute q choice).after s = s) ∧
    (¬ q.table.root.FullJoinOccurs →
      (compile q choice).result s =
        (compile q choice).result { s with capabilities := ⟨true, s.capabilities.dialect⟩ } ∧
      ∀ e, (compile q choice).result s = .error e → e ≠ .plan .noFullJoin) := by
  rw [← Plan.hasFullJoin_iff, Bool.not_eq_true]
  constructor
  · intro hfull
    obtain ⟨hresult, hafter⟩ := compile_of_fullJoin hfull hlacks choice
    have hexecute : execute q choice = (compile q choice >>= _) := rfl
    obtain ⟨hresult', hafter'⟩ := bind_of_error hresult _
    exact ⟨rfl, hresult, hafter, hexecute ▸ hresult', hexecute ▸ hafter'.trans hafter⟩
  · intro hnone
    refine ⟨result_compile_congr_fullJoin hnone choice, fun e he hfull => ?_⟩
    exact
      (hfull ▸ failsWith_compile_of_no_fullJoin hnone choice e he :
        Error.OfQuery (.plan .noFullJoin))

/-- A full join below the right side of a semi join under a limit, in a session that holds a table
and has run a query. -/
theorem fullJoin_refused_nested :
    let schema : Schema := ⟨[("a", .int64)], by decide⟩
    let created := (Session.start ⟨false, .ansi⟩).runCalls [.create "t" schema none .error]
    let s := { created with executed := ["SELECT * FROM t AS t0"] }
    let scan : Plan := .node (.scan "t") ⟨0⟩ schema []
    let full : Plan := .node (.join ⟨.full, [⟨"a", "a"⟩], none, []⟩) ⟨1⟩ schema [scan, scan]
    let semi : Plan := .node (.join ⟨.semi, [⟨"a", "a"⟩], none, []⟩) ⟨2⟩ schema [scan, full]
    let q : Query := ⟨⟨.node (.limit (some 1) 0) ⟨3⟩ schema [semi], .standard⟩, .scalar⟩
    s.capabilities.fullJoin = false ∧ q.table.root.FullJoinOccurs ∧
      (execute q (.rows 2)).result s = .error (.plan .noFullJoin) ∧
      (execute q (.rows 2)).after s = s := by
  intro schema created s scan full semi q
  have hfull : full.FullJoinOccurs := .root rfl
  have hsemi : semi.FullJoinOccurs := .input (List.mem_cons_of_mem scan List.mem_cons_self) hfull
  have hoccurs : q.table.root.FullJoinOccurs := .input List.mem_cons_self hsemi
  have hlacks : s.capabilities.fullJoin = false := rfl
  obtain ⟨-, -, -, hresult, hafter⟩ := (fullJoin_refused hlacks q (.rows 2)).1 hoccurs
  exact ⟨hlacks, hoccurs, hresult, hafter⟩

end Session

end TableQuery
