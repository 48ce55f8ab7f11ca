import TableQuery.Proofs.Operator.Layout
import TableQuery.Proofs.Session.Compile
import TableQuery.Proofs.Store.Reading

/-! # The layout of query results

The main statement, `Built.execute_laidOut`, is that running a query gives a batch with the columns
of its schema, whatever its shape and limit, if the plan is in step with the store: the session's
check of the number of columns never fails. The types of the batch are those of the plan by
`Executes.laidOut`; no other step of a query reports the error of this check (`Error.OfQuery`). -/

namespace TableQuery

namespace Session

variable {s : Session} {q : Query} {choice : LimitChoice}

/-- A query that compiles is a plan cut from its own, rendered and lowered. -/
theorem compiles_of_result_compile {c : CompiledQuery} (h : (compile q choice).result s = .ok c) :
    ∃ root, c.Compiles s.capabilities q root := by
  rw [result_compile] at h
  have hgives : (q.compile s.capabilities s.config choice).Gives s.nextRef c
      ((q.compile s.capabilities s.config choice).run.run s.nextRef).run.2 := Prod.ext h rfl
  exact Query.compiles_of_compile hgives

/-- What running a compiled query goes through. -/
theorem executes_of_compile (hchecked : q.table.root.Checked) {c : CompiledQuery}
    (h : (compile q choice).result s = .ok c) {b : Batch}
    (hb : c.plan.run s.store.provider = .ok b) :
    ∃ root, q.table.root.CutOf root ∧ root.Executes s.store.provider c.plan b := by
  obtain ⟨root, hc⟩ := compiles_of_result_compile h
  exact ⟨root, hc.cut, OperatorPlan.executes_of_ofPlan (hc.cut.checked hchecked) hc.plan hb⟩

/-- No step of a query but the session's own check reports an unexpected number of columns. -/
theorem result_execute_ne_columnCount (hcount : ∀ c b, (compile q choice).result s = .ok c →
      c.plan.run s.store.provider = .ok b → b.numColumns = c.schema.size) (expected found : Nat) :
    (execute q choice).result s ≠ .error (.result (.columnCount expected found)) := by
  have hfails : Result.FailsWith (fun e => e ≠ .result (.columnCount expected found))
      ((execute q choice).result s) := by
    rw [result_execute, Result.failsWith_bind]
    refine ⟨fun e he => ?_, fun c hc => Result.failsWith_bind.mpr ⟨fun e he => ?_, fun b hb => ?_⟩⟩
    · rcases q.failsWith_compile _ _ choice s.nextRef e he with rfl | hquery
      · simp
      · rintro rfl
        exact hquery
    · have hquery := OperatorPlan.failsWith_run s.store.failsWith_provider c.plan e he
      rintro rfl
      exact hquery
    · rw [if_neg (not_not.mpr (hcount c b hc hb))]
      have houtput : Result.FailsWith (fun e => e ≠ .result (.columnCount expected found))
          (QueryResult.outputOf c.shape b) := by
        unfold QueryResult.outputOf
        repeat' split
        all_goals simp
      exact Result.failsWith_bind.mpr ⟨houtput, fun _ _ => Result.failsWith_pure _⟩
  exact fun h => hfails _ h rfl

end Session

namespace Table

/-- **Results have the layout of their schema**: for a table that calls can build, in a session over
a store that calls have made and that the plan is in step with, whatever running a compiled query
gives has the columns of the table's schema, in number, order and type, and a value for each in
every row. So the query never fails for an unexpected number of columns. -/
theorem Built.execute_laidOut {next : TableRef} {t : Table} (h : Built next t) {s : Session}
    (hs : s.store.Reachable) (hstep : t.root.InStep s.store) (shape : ResultShape)
    (choice : LimitChoice) :
    (∀ c b, (Session.compile ⟨t, shape⟩ choice).result s = .ok c →
      c.plan.run s.store.provider = .ok b → c.schema = t.schema ∧ b.numColumns = t.schema.size ∧
        b.types = t.schema.types ∧ b.Rectangular) ∧
    ∀ expected found, (Session.execute ⟨t, shape⟩ choice).result s ≠
      .error (.result (.columnCount expected found)) := by
  have hlaidOut : ∀ c b, (Session.compile ⟨t, shape⟩ choice).result s = .ok c →
      c.plan.run s.store.provider = .ok b → c.schema = t.schema ∧ b.LaidOut t.schema := by
    intro c b hc hb
    obtain ⟨root, hcut, hexecutes⟩ := Session.executes_of_compile h.sound.checked hc hb
    obtain ⟨_, hcompiles⟩ := Session.compiles_of_result_compile hc
    have hleaves := hcut.leavesGive (h.leavesGive_laidOut hs hstep)
    have hresult := hexecutes.laidOut hleaves
    rw [hcut.schema_eq] at hresult
    exact ⟨hcompiles.schema, hresult⟩
  refine ⟨fun c b hc hb => ?_, ?_⟩
  · obtain ⟨hschema, hb⟩ := hlaidOut c b hc hb
    exact ⟨hschema, hb.numColumns_eq, hb.types, hb.rectangular⟩
  · refine Session.result_execute_ne_columnCount fun c b hc hb => ?_
    obtain ⟨hschema, hb⟩ := hlaidOut c b hc hb
    rw [hb.numColumns_eq, hschema]

/-- Places beside a column of a stored table, under a limit. -/
theorem Built.execute_laidOut_places :
    let n : Int → Scalar := fun v => .int .int64 (Bounded.clamp _ _ (by decide) v)
    let stored : Schema := ⟨[("a", .int64), ("b", .utf8)], by decide⟩
    let rows : { b : Batch // b.Rectangular } :=
      ⟨⟨stored.types, [[n 1, .utf8 "x"], [n 2, .null]]⟩,
        List.forall_mem_cons.mpr ⟨rfl, List.forall_mem_singleton.mpr rfl⟩⟩
    let s := (Session.start ⟨true, .ansi⟩).runCalls [.create "t" stored (some rows) .error]
    let place : Expr := .aliased "n" (.window .rowNumber none [] [⟨.col "a", true, false⟩])
    let scanned : Plan := .node (.scan "t") ⟨0⟩ stored []
    let schema : Schema := ⟨[("b", .utf8), ("n", DataType.int64.nonNull)], by decide⟩
    let t : Table := ⟨.node (.project [.col "b", place]) ⟨1⟩ schema [scanned], .standard⟩
    let b : Batch := ⟨[.utf8, DataType.int64.nonNull], [[.utf8 "x", n 1]]⟩
    Built ⟨2⟩ t ∧ s.store.Reachable ∧ t.root.InStep s.store ∧
      (∃ c, (Session.compile ⟨t, .table⟩ (.rows 1)).result s = .ok c ∧
        c.plan.run s.store.provider = .ok b ∧ b.types = c.schema.types) ∧
      (Session.execute ⟨t, .table⟩ (.rows 1)).result s ≠ .error (.result (.columnCount 2 3)) := by
  intro n stored rows s place scanned schema t b
  have hscan : (Table.scan "t" stored).Gives ⟨0⟩ ⟨scanned, .standard⟩ ⟨1⟩ := rfl
  have hselect : (Table.select ⟨scanned, .standard⟩ [.col "b", place]).Gives ⟨1⟩ t ⟨2⟩ := rfl
  have hbuilt : Built ⟨2⟩ t := .select (.scan hscan) hselect
  have hs : s.store.Reachable := Session.runCalls_reachable .empty _
  have hstep : t.root.InStep s.store := by
    intro q hq
    rcases Plan.mem_nodes_unary.mp hq with rfl | hq
    · trivial
    · rw [List.mem_singleton.mp hq]
      exact ⟨_, rfl, rfl⟩
  obtain ⟨c, hc, hrun⟩ : ∃ c, (Session.compile ⟨t, .table⟩ (.rows 1)).result s = .ok c ∧
      c.plan.run s.store.provider = .ok b := ⟨_, rfl, by cbv⟩
  obtain ⟨hlayout, hcount⟩ := hbuilt.execute_laidOut hs hstep .table (.rows 1)
  obtain ⟨hschema, -, htypes, -⟩ := hlayout c b hc hrun
  exact ⟨hbuilt, hs, hstep, ⟨c, hc, hrun, htypes.trans (congrArg Schema.types hschema.symm)⟩,
    hcount 2 3⟩

end Table

end TableQuery
