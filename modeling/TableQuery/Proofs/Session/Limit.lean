import TableQuery.Proofs.Session.Answer
import TableQuery.Proofs.Store.Invariant

/-! # Limits of queries

What the number of rows that a caller wants, the default limit and a limit at the root of a plan
make of a result. A number of rows takes that many of the rows of the plan, and takes the place of a
limit that is there, whose offset stays (`Built.execute_limited`). The default limit does the same
to plans without a limit at the root and leaves the others as they are (`execute_default_capped`):
it does not cut a plan that only skips rows (`Built.not_execute_default_capped`). -/

namespace TableQuery

namespace Session

variable {s s' : Session} {q : Query} {choice : LimitChoice} {c : CompiledQuery} {m n : Nat}

theorem result_compile_unbounded (q : Query) (s : Session) :
    (compile q .unbounded).result s = s.compileRoot q.shape q.table.root :=
  result_compile_eq_compileRoot (q.gives_rootFor_unbounded s.config s.nextRef)

theorem result_execute_unbounded (q : Query) (s : Session) :
    (execute q .unbounded).result s = s.answer q.shape q.table.root :=
  result_execute_eq_answer (q.gives_rootFor_unbounded s.config s.nextRef)

/-- **The limit of a compiled query bounds its rows.** -/
theorem numRows_le_of_limit (h : (compile q choice).result s = .ok c) (hm : c.limit = some m) :
    (∀ b, (run c).result s = .ok b → b.numRows ≤ m) ∧
      ∀ r, (execute q choice).result s = .ok r → r.numRows ≤ m := by
  obtain ⟨root, next, hroot⟩ := q.exists_gives_rootFor s.config choice s.nextRef
  rw [result_compile_eq_compileRoot hroot] at h
  obtain ⟨-, -, -, -, -, hlimit⟩ := compileRoot_eq_ok_iff.mp h
  have hrootLimit : root.rootLimit? = some m := hlimit.symm.trans hm
  have hbatch := batchOf_eq s q.shape root
  rw [h, Result.ok_bind] at hbatch
  refine ⟨fun b hb => ?_, fun r hr => ?_⟩
  · rw [result_run, ← hbatch] at hb
    exact numRows_le_of_rootLimit? hrootLimit hb
  · rw [result_execute_eq_answer hroot] at hr
    obtain ⟨b, hb, -, -, houtput⟩ := answer_eq_ok_iff.mp hr
    have hrows : r.numRows = b.numRows := QueryResult.numRows_eq_of_outputOf houtput
    exact hrows ▸ numRows_le_of_rootLimit? hrootLimit hb

/-- A number of rows of a plan without a limit at its root. -/
theorem result_execute_rows (hshape : q.shape ≠ .scalar)
    (hroot : ∀ m k, q.table.root.op ≠ .limit m k) (n : Nat) : (execute q (.rows n)).result s =
      (s.answer q.shape q.table.root).map (·.mapRows (·.take n)) := by
  have hgives := Query.gives_rootFor_rows hshape hroot s.config n s.nextRef
  rw [result_execute_eq_answer hgives, answer_limit hshape]
  rfl

/-- A number of rows of a plan with a limit at its root. -/
theorem result_execute_rows_limit (hshape : q.shape ≠ .scalar) {k : Nat} {own : TableRef}
    {input : Plan} {l : Option Nat}
    (hroot : q.table.root = .node (.limit l k) own input.schema [input]) (n : Nat) :
    (execute q (.rows n)).result s =
      (s.answer q.shape input).map (·.mapRows fun rows => (rows.drop k).take n) := by
  have hgives := Query.gives_rootFor_rows_limit hshape hroot s.config n s.nextRef
  rw [result_execute_eq_answer hgives, answer_limit hshape]

end Session

namespace Table

/-- **Limits of queries**: for a table that calls can build, in two sessions over one store and
backend whose settings may differ. Of a plan without a limit at its root, a number of rows takes the
first rows; of a limit at the root it keeps the offset and takes the rows behind it, however many
rows the limit itself would let through. Without a bound the plan is compiled and answered as it
stands. Where a compiled query has a limit, no more rows come out of it. A query for a single value
does not depend on what the caller wants or on the settings. -/
theorem Built.execute_limited {next : TableRef} {t : Table} (h : Built next t) {s s' : Session}
    (hcapabilities : s.capabilities = s'.capabilities) (hstore : s.store = s'.store) :
    (∀ shape, shape ≠ .scalar →
      ((∀ m k, t.root.op ≠ .limit m k) → ∀ n, (Session.execute ⟨t, shape⟩ (.rows n)).result s =
        ((Session.execute ⟨t, shape⟩ .unbounded).result s').map (·.mapRows (·.take n))) ∧
      ∀ m k, t.root.op = .limit m k → ∃ c, t.root.children = [c] ∧ ∀ n,
        (Session.execute ⟨t, shape⟩ (.rows n)).result s =
          ((Session.execute ⟨⟨c, t.suffixes⟩, shape⟩ .unbounded).result s').map
            (·.mapRows fun rows => (rows.drop k).take n)) ∧
    (∀ shape,
      (Session.compile ⟨t, shape⟩ .unbounded).result s = s'.compileRoot shape t.root ∧
      (Session.execute ⟨t, shape⟩ .unbounded).result s = s'.answer shape t.root) ∧
    (∀ shape choice c m, (Session.compile ⟨t, shape⟩ choice).result s = .ok c → c.limit = some m →
      (∀ b, (Session.run c).result s = .ok b → b.numRows ≤ m) ∧
      ∀ r, (Session.execute ⟨t, shape⟩ choice).result s = .ok r → r.numRows ≤ m) ∧
    ∀ choice choice',
      (Session.compile ⟨t, .scalar⟩ choice).result s =
        (Session.compile ⟨t, .scalar⟩ choice').result s' ∧
      (Session.execute ⟨t, .scalar⟩ choice).result s =
        (Session.execute ⟨t, .scalar⟩ choice').result s' := by
  have hanswer := Session.answer_congr hcapabilities hstore
  have hcompile := Session.compileRoot_congr hcapabilities
  refine ⟨fun shape hshape => ⟨fun hroot n => ?_, fun m k hroot => ?_⟩, fun shape => ⟨?_, ?_⟩,
    fun shape choice c m hc hm => Session.numRows_le_of_limit hc hm,
    fun choice choice' => ⟨?_, ?_⟩⟩
  · rw [Session.result_execute_rows hshape hroot, Session.result_execute_unbounded, hanswer]
  · obtain ⟨⟨op, own, schema, children⟩, suffixes⟩ := t
    cases hroot
    cases h.sound.checked with
    | @limit _ _ _ c hc =>
      refine ⟨c, rfl, fun n => ?_⟩
      rw [Session.result_execute_rows_limit hshape rfl, Session.result_execute_unbounded, hanswer]
  · rw [Session.result_compile_unbounded, hcompile]
  · rw [Session.result_execute_unbounded, hanswer]
  · rw [Session.result_compile_eq_compileRoot (Query.gives_rootFor_scalar rfl _ choice _),
      Session.result_compile_eq_compileRoot (Query.gives_rootFor_scalar rfl _ choice' _), hcompile]
  · rw [Session.result_execute_eq_answer (Query.gives_rootFor_scalar rfl _ choice _),
      Session.result_execute_eq_answer (Query.gives_rootFor_scalar rfl _ choice' _), hanswer]

/-- Two rows behind the first one, of a plan that would take one row there. -/
theorem Built.execute_limited_replaced :
    let n : Int → Scalar := fun v => .int .int64 (Bounded.clamp _ _ (by decide) v)
    let stored : Schema := ⟨[("a", .int64)], by decide⟩
    let rows : { b : Batch // b.Rectangular } :=
      ⟨⟨stored.types, [[n 1], [n 2], [n 3]]⟩, List.forall_mem_cons.mpr
        ⟨rfl, List.forall_mem_cons.mpr ⟨rfl, List.forall_mem_singleton.mpr rfl⟩⟩⟩
    let s := (Session.start ⟨true, .ansi⟩).runCalls [.create "t" stored (some rows) .error]
    let s' := { s with config := ⟨some (Bounded.clamp _ _ (by decide) 1), false, "_right"⟩ }
    let scanned : Plan := .node (.scan "t") ⟨0⟩ stored []
    let t : Table := ⟨.node (.limit (some 1) 1) ⟨1⟩ stored [scanned], .standard⟩
    Built ⟨2⟩ t ∧ s.capabilities = s'.capabilities ∧ s.store = s'.store ∧
      (Session.execute ⟨t, .table⟩ (.rows 2)).result s =
        .ok ⟨stored, .batch ⟨[.int64], [[n 2], [n 3]]⟩⟩ := by
  intro n stored rows s s' scanned t
  have hscan : (Table.scan "t" stored).Gives ⟨0⟩ ⟨scanned, .standard⟩ ⟨1⟩ := rfl
  have hlimit : (Table.limitOffset ⟨scanned, .standard⟩ (some 1) 1).Gives ⟨1⟩ t ⟨2⟩ := rfl
  have hbuilt : Built ⟨2⟩ t := .limitOffset (.scan hscan) hlimit
  have hcapabilities : s.capabilities = s'.capabilities := rfl
  have hstore : s.store = s'.store := rfl
  have hall : (Session.execute ⟨⟨scanned, .standard⟩, .table⟩ .unbounded).result s' =
      .ok ⟨stored, .batch ⟨[.int64], [[n 1], [n 2], [n 3]]⟩⟩ := rfl
  obtain ⟨hlimits, -⟩ := hbuilt.execute_limited hcapabilities hstore
  obtain ⟨c, hc, hrows⟩ := (hlimits .table (by decide)).2 (some 1) 1 rfl
  cases hc
  refine ⟨hbuilt, hcapabilities, hstore, ?_⟩
  rw [hrows, hall]
  rfl

/-! ### The default limit -/

/-- **The default limit** takes the first rows of a plan without a limit at its root, so that no
more come out, and is the limit of the compiled query. A plan with a limit at its root is compiled
and answered as it stands, even where that limit only skips rows. -/
theorem execute_default_capped (t : Table) {shape : ResultShape} (hshape : shape ≠ .scalar)
    {s : Session} {n : IntType.Value .uint64} (hn : s.config.defaultLimit = some n) :
    ((∀ m k, t.root.op ≠ .limit m k) →
      (Session.execute ⟨t, shape⟩ .default).result s =
        ((Session.execute ⟨t, shape⟩ .unbounded).result s).map
          (·.mapRows (·.take n.val.toNat)) ∧
      ∀ c, (Session.compile ⟨t, shape⟩ .default).result s = .ok c → c.limit = some n.val.toNat ∧
        ∀ r, (Session.execute ⟨t, shape⟩ .default).result s = .ok r → r.numRows ≤ n.val.toNat) ∧
    ∀ m k, t.root.op = .limit m k →
      (Session.execute ⟨t, shape⟩ .default).result s =
        (Session.execute ⟨t, shape⟩ .unbounded).result s ∧
      ∀ c, (Session.compile ⟨t, shape⟩ .default).result s = .ok c → c.limit = m := by
  have hdefault : s.config.defaultLimit.map (·.val.toNat) = some n.val.toNat := by rw [hn]; rfl
  refine ⟨fun hroot => ?_, fun m k hroot => ?_⟩
  · have hgives := Query.gives_rootFor_default (q := ⟨t, shape⟩) hshape hroot hdefault s.nextRef
    refine ⟨?_, fun c hc => ?_⟩
    · rw [Session.result_execute_eq_answer hgives, Session.answer_limit hshape,
        Session.result_execute_unbounded]
      rfl
    · have hlimit : c.limit = some n.val.toNat := by
        rw [Session.result_compile_eq_compileRoot hgives] at hc
        exact (Session.compileRoot_eq_ok_iff.mp hc).2.2.2.2.2
      exact ⟨hlimit, (Session.numRows_le_of_limit hc hlimit).2⟩
  · have hgives := Query.gives_rootFor_default_limit (q := ⟨t, shape⟩) hroot s.config s.nextRef
    refine ⟨?_, fun c hc => ?_⟩
    · rw [Session.result_execute_eq_answer hgives, Session.result_execute_unbounded]
    · rw [Session.result_compile_eq_compileRoot hgives] at hc
      obtain ⟨-, -, -, -, -, hlimit⟩ := Session.compileRoot_eq_ok_iff.mp hc
      obtain ⟨⟨op, own, schema, children⟩, suffixes⟩ := t
      cases hroot
      exact hlimit

/-- One row of two, by the settings. -/
theorem execute_default_capped_one :
    let n : Int → Scalar := fun v => .int .int64 (Bounded.clamp _ _ (by decide) v)
    let one : IntType.Value .uint64 := Bounded.clamp _ _ (by decide) 1
    let stored : Schema := ⟨[("a", .int64)], by decide⟩
    let rows : { b : Batch // b.Rectangular } := ⟨⟨stored.types, [[n 1], [n 2]]⟩,
      List.forall_mem_cons.mpr ⟨rfl, List.forall_mem_singleton.mpr rfl⟩⟩
    let created := (Session.start ⟨true, .ansi⟩).runCalls [.create "t" stored (some rows) .error]
    let s := { created with config := ⟨some one, false, "_right"⟩ }
    let t : Table := ⟨.node (.scan "t") ⟨0⟩ stored [], .standard⟩
    ResultShape.table ≠ .scalar ∧ s.config.defaultLimit = some one ∧
      (∀ m k, t.root.op ≠ .limit m k) ∧ (Session.execute ⟨t, .table⟩ .default).result s =
        .ok ⟨stored, .batch ⟨[.int64], [[n 1]]⟩⟩ := by
  intro n one stored rows created s t
  have hroot : ∀ m k, t.root.op ≠ .limit m k := by
    intro m k h
    cases h
  have hall : (Session.execute ⟨t, .table⟩ .unbounded).result s =
      .ok ⟨stored, .batch ⟨[.int64], [[n 1], [n 2]]⟩⟩ := rfl
  have hshape : ResultShape.table ≠ .scalar := by decide
  obtain ⟨hrows, -⟩ := (t.execute_default_capped hshape (s := s) (n := one) rfl).1 hroot
  refine ⟨hshape, rfl, hroot, ?_⟩
  rw [hrows, hall]
  rfl

/-- A plan that only skips rows is not cut: two rows come out under a default limit of one, and the
compiled query has no limit. -/
theorem Built.not_execute_default_capped :
    let n : Int → Scalar := fun v => .int .int64 (Bounded.clamp _ _ (by decide) v)
    let one : IntType.Value .uint64 := Bounded.clamp _ _ (by decide) 1
    let stored : Schema := ⟨[("a", .int64)], by decide⟩
    let rows : { b : Batch // b.Rectangular } :=
      ⟨⟨stored.types, [[n 1], [n 2], [n 3]]⟩, List.forall_mem_cons.mpr
        ⟨rfl, List.forall_mem_cons.mpr ⟨rfl, List.forall_mem_singleton.mpr rfl⟩⟩⟩
    let created := (Session.start ⟨true, .ansi⟩).runCalls [.create "t" stored (some rows) .error]
    let s := { created with config := ⟨some one, false, "_right"⟩ }
    let scanned : Plan := .node (.scan "t") ⟨0⟩ stored []
    let t : Table := ⟨.node (.limit none 1) ⟨1⟩ stored [scanned], .standard⟩
    Built ⟨2⟩ t ∧ s.config.defaultLimit = some one ∧ (∀ m k, t.root.op ≠ .limit (some m) k) ∧
      (∃ c, (Session.compile ⟨t, .table⟩ .default).result s = .ok c ∧ c.limit = none) ∧
      ∃ r, (Session.execute ⟨t, .table⟩ .default).result s = .ok r ∧
        r.output = .batch ⟨[.int64], [[n 2], [n 3]]⟩ ∧ ¬ r.numRows ≤ one.val.toNat := by
  intro n one stored rows created s scanned t
  have hscan : (Table.scan "t" stored).Gives ⟨0⟩ ⟨scanned, .standard⟩ ⟨1⟩ := rfl
  have hlimit : (Table.limitOffset ⟨scanned, .standard⟩ none 1).Gives ⟨1⟩ t ⟨2⟩ := rfl
  have hbuilt : Built ⟨2⟩ t := .limitOffset (.scan hscan) hlimit
  have hrows : (Session.execute ⟨t, .table⟩ .default).result s =
      .ok ⟨stored, .batch ⟨[.int64], [[n 2], [n 3]]⟩⟩ := rfl
  have hroot : ∀ m k, t.root.op ≠ .limit (some m) k := by
    intro m k h
    cases h
  exact ⟨hbuilt, rfl, hroot, ⟨_, rfl, rfl⟩, _, hrows, rfl, by decide⟩

end Table

end TableQuery
