import TableQuery.Proofs.Operator.Conforms
import TableQuery.Proofs.Session.Layout

/-! # Types of query results

A store conforms if every value of its tables conforms to the type of its column (`Store.Conforms`).
Plans that read from such a store, and hold no other values themselves, give rows that conform to
their schema (`Built.execute_conforms`), but for one column: a full join may make it of two keys of
different types, and then values of both are found in it (`Built.not_execute_conforms`). -/

namespace TableQuery

/-- **Every value of a store conforms** to the type of its column. -/
def Store.Conforms (s : Store) : Prop :=
  ∀ name t, s.find name = .ok t → t.data.toBatch.Conforms t.schema

/-- **Every value held in a plan conforms** to the type of its column. -/
def Plan.HoldsConforming (p : Plan) : Prop :=
  ∀ q ∈ p.nodes, ∀ b, q.op = .values b → b.Conforms q.schema

namespace Plan

variable {ref : TableRef} {schema : Schema}

theorem HoldsConforming.scan {name : String} :
    (node (.scan name) ref schema []).HoldsConforming := by
  intro q hq b hb
  rw [List.mem_singleton.mp hq] at hb
  cases hb

theorem HoldsConforming.join {j : Join} {l r : Plan} (hl : l.HoldsConforming)
    (hr : r.HoldsConforming) : (node (.join j) ref schema [l, r]).HoldsConforming := by
  intro q hq b hb
  rcases mem_nodes_binary.mp hq with rfl | hq | hq
  · cases hb
  · exact hl q hq b hb
  · exact hr q hq b hb

end Plan

namespace Store

variable {s : Store}

theorem conforms_of_tables (h : ∀ p ∈ s.tables, p.2.data.toBatch.Conforms p.2.schema) :
    s.Conforms :=
  fun _ _ ht => h _ (mem_of_find ht)

theorem Conforms.of_scan (h : s.Conforms) {name : String} {t : StoredTable} {b : Batch}
    (ht : s.find name = .ok t) (hb : s.scan name = .ok b) : b.Conforms t.schema := by
  obtain ⟨u, hu, rfl⟩ := scan_eq_ok_iff.mp hb
  rw [ht] at hu
  cases hu
  exact h name t ht

theorem Conforms.of_query (h : s.Conforms) (hs : s.Reachable) {sql : String} {b : Batch}
    {schema : Schema} (hb : s.query sql = .ok b) (hschema : s.querySchema sql = .ok schema) :
    b.Conforms schema := by
  obtain ⟨name, t, positions, ht, hpositions, hpicked, htypes⟩ := hs.picked_of_query hb hschema
  intro row hrow
  obtain ⟨r, hr, rfl⟩ := hpicked.rows row hrow
  rw [htypes, hpicked.types, List.forall₂_map_left_iff, List.forall₂_map_right_iff,
    List.forall₂_same]
  intro i hi
  have hlt : i < t.schema.types.length := by
    rw [Schema.types, List.length_map]
    exact hpositions i hi
  rw [List.getD_eq_getElem _ _ hlt]
  exact RowExpr.conforms_getD (h name t ht r hr) (List.getElem?_eq_getElem hlt)

/-- The leaves of a plan in step with a store that conforms give rows that do. -/
theorem Conforms.leavesGive (h : s.Conforms) (hs : s.Reachable) {p : Plan} (hstep : p.InStep s)
    (hp : p.HoldsConforming) : p.LeavesGive s.provider Batch.Conforms := by
  intro q hq
  have hq' := hstep q hq
  have hheld := hp q hq
  obtain ⟨op, ref, schema, children⟩ := q
  cases op with
  | scan name =>
    obtain ⟨u, hu, hschema⟩ := hq'
    intro b hb
    exact hschema ▸ h.of_scan hu hb
  | sqlQuery query => exact fun b hb => h.of_query hs hb hq'
  | values batch => exact hheld batch rfl
  | _ => trivial

end Store

theorem Plan.CutOf.keysFit {p q : Plan} (h : p.CutOf q) (hp : p.KeysFit) : q.KeysFit := by
  intro r hr
  rcases h.mem_nodes hr with hr | ⟨_, _, _, _, _, rfl⟩
  · exact hp r hr
  · trivial

namespace Table

/-- **The values of results conform to their types**: for a table that calls can build, over a store
that calls have made and that the plan is in step with, every value of a result conforms to the type
that the schema declares for its column, if those that the plan starts from do, and if all values of
both keys are values of the column where a full join makes one column of them. -/
theorem Built.execute_conforms {next : TableRef} {t : Table} (h : Built next t) {s : Session}
    (hs : s.store.Reachable) (hstep : t.root.InStep s.store) (hstore : s.store.Conforms)
    (hheld : t.root.HoldsConforming) (hkeys : t.root.KeysFit) {shape : ResultShape}
    {choice : LimitChoice} {c : CompiledQuery} {b : Batch}
    (hc : (Session.compile ⟨t, shape⟩ choice).result s = .ok c)
    (hb : c.plan.run s.store.provider = .ok b) :
    ∀ row ∈ b.rows, List.Forall₂ Scalar.Conforms row t.schema.types := by
  obtain ⟨root, hcut, hexecutes⟩ := Session.executes_of_compile h.sound.checked hc hb
  have hresult := hexecutes.conforms (hcut.leavesGive (hstore.leavesGive hs hstep hheld))
    (hcut.keysFit hkeys)
  rw [hcut.schema_eq] at hresult
  exact hresult

/-- A full join on keys of one type, the column of which has values of both. -/
theorem Built.execute_conforms_full :
    let n : Int → Scalar := fun v => .int .int64 (Bounded.clamp _ _ (by decide) v)
    let keyed : Schema := ⟨[("k", .int64)], by decide⟩
    let rows : Int → { b : Batch // b.Rectangular } := fun v =>
      ⟨⟨keyed.types, [[n v]]⟩, List.forall_mem_singleton.mpr rfl⟩
    let s := (Session.start ⟨true, .ansi⟩).runCalls
      [.create "l" keyed (some (rows 1)) .error, .create "r" keyed (some (rows 2)) .error]
    let left : Plan := .node (.scan "l") ⟨0⟩ keyed []
    let right : Plan := .node (.scan "r") ⟨1⟩ keyed []
    let join : Join := ⟨.full, [⟨"k", "k"⟩], none, [⟨"k", .coalesce "k" "k"⟩]⟩
    let t : Table := ⟨.node (.join join) ⟨2⟩ keyed [left, right], .standard⟩
    Built ⟨3⟩ t ∧ s.store.Reachable ∧ t.root.InStep s.store ∧ s.store.Conforms ∧
      t.root.HoldsConforming ∧ t.root.KeysFit ∧
      ∃ c, (Session.compile ⟨t, .table⟩ .unbounded).result s = .ok c ∧
        c.plan.run s.store.provider = .ok ⟨[.int64], [[n 1], [n 2]]⟩ ∧
        ∀ row ∈ [[n 1], [n 2]], List.Forall₂ Scalar.Conforms row t.schema.types := by
  intro n keyed rows s left right join t
  have hleft : (Table.scan "l" keyed).Gives ⟨0⟩ ⟨left, .standard⟩ ⟨1⟩ := rfl
  have hright : (Table.scan "r" keyed).Gives ⟨1⟩ ⟨right, .standard⟩ ⟨2⟩ := rfl
  have hjoin : (Table.joinWith ⟨left, .standard⟩ ⟨right, .standard⟩ (.columns [("k", "k")]) .full
    .standard).Gives ⟨2⟩ t ⟨3⟩ := rfl
  have hbuilt : Built ⟨3⟩ t := .joinWith (.later (.scan hleft) (by decide)) (.scan hright) hjoin
  have hs : s.store.Reachable := Session.runCalls_reachable .empty _
  have hl : s.store.find "l" = .ok ⟨keyed, .ofBatch (rows 1)⟩ := rfl
  have hr : s.store.find "r" = .ok ⟨keyed, .ofBatch (rows 2)⟩ := rfl
  have hstep : t.root.InStep s.store := .join (.scan hl) (.scan hr)
  have htables : s.store.tables =
      [("l", ⟨keyed, .ofBatch (rows 1)⟩), ("r", ⟨keyed, .ofBatch (rows 2)⟩)] := rfl
  have hstore : s.store.Conforms := by
    refine Store.conforms_of_tables ?_
    rw [htables]
    exact List.forall_mem_cons.mpr ⟨List.forall_mem_singleton.mpr (.cons (.int _ _) .nil),
      List.forall_mem_singleton.mpr (List.forall_mem_singleton.mpr (.cons (.int _ _) .nil))⟩
  have hheld : t.root.HoldsConforming := .join .scan .scan
  have hkeys : t.root.KeysFit := by
    have hnodes : t.root.nodes = [t.root, left, right] := rfl
    unfold Plan.KeysFit
    rw [hnodes]
    simp only [List.forall_mem_cons]
    refine ⟨fun name a b u hmem hu => ?_, trivial, trivial, List.forall_mem_nil _⟩
    cases List.mem_singleton.mp hmem
    cases hu
    exact ⟨⟨_, rfl, .refl _⟩, _, rfl, .refl _⟩
  obtain ⟨c, hc, hrun⟩ : ∃ c, (Session.compile ⟨t, .table⟩ .unbounded).result s = .ok c ∧
      c.plan.run s.store.provider = .ok ⟨[.int64], [[n 1], [n 2]]⟩ := ⟨_, rfl, by cbv⟩
  exact ⟨hbuilt, hs, hstep, hstore, hheld, hkeys, c, hc, hrun,
    hbuilt.execute_conforms hs hstep hstore hheld hkeys hc hrun⟩

/-- **Not every column holds values of one type**: a full join takes the values of a narrow and of a
wide key as they are into one column of the wide type. -/
theorem Built.not_execute_conforms :
    let narrow : Scalar := .int .int32 (Bounded.clamp _ _ (by decide) 1)
    let wide : Scalar := .int .int64 (Bounded.clamp _ _ (by decide) 2)
    let l : Schema := ⟨[("k", .int .int32)], by decide⟩
    let r : Schema := ⟨[("k", .int64)], by decide⟩
    let s := (Session.start ⟨true, .ansi⟩).runCalls
      [.create "l" l (some ⟨⟨l.types, [[narrow]]⟩, List.forall_mem_singleton.mpr rfl⟩) .error,
        .create "r" r (some ⟨⟨r.types, [[wide]]⟩, List.forall_mem_singleton.mpr rfl⟩) .error]
    let left : Plan := .node (.scan "l") ⟨0⟩ l []
    let right : Plan := .node (.scan "r") ⟨1⟩ r []
    let join : Join := ⟨.full, [⟨"k", "k"⟩], none, [⟨"k", .coalesce "k" "k"⟩]⟩
    let t : Table := ⟨.node (.join join) ⟨2⟩ r [left, right], .standard⟩
    Built ⟨3⟩ t ∧ s.store.Reachable ∧ t.root.InStep s.store ∧ s.store.Conforms ∧
      t.root.HoldsConforming ∧ t.schema.types = [.int64] ∧
      (∃ c, (Session.compile ⟨t, .table⟩ .unbounded).result s = .ok c ∧
        c.plan.run s.store.provider = .ok ⟨[.int64], [[narrow], [wide]]⟩) ∧
      ¬ narrow.Conforms .int64 := by
  intro narrow wide l r s left right join t
  have hleft : (Table.scan "l" l).Gives ⟨0⟩ ⟨left, .standard⟩ ⟨1⟩ := rfl
  have hright : (Table.scan "r" r).Gives ⟨1⟩ ⟨right, .standard⟩ ⟨2⟩ := rfl
  have hjoin : (Table.joinWith ⟨left, .standard⟩ ⟨right, .standard⟩ (.columns [("k", "k")]) .full
    .standard).Gives ⟨2⟩ t ⟨3⟩ := rfl
  have hl : s.store.find "l" = .ok ⟨l, .ofBatch ⟨l.types, [[narrow]]⟩⟩ := rfl
  have hr : s.store.find "r" = .ok ⟨r, .ofBatch ⟨r.types, [[wide]]⟩⟩ := rfl
  have htables : s.store.tables =
      [("l", ⟨l, .ofBatch ⟨l.types, [[narrow]]⟩⟩), ("r", ⟨r, .ofBatch ⟨r.types, [[wide]]⟩⟩)] := rfl
  refine ⟨.joinWith (.later (.scan hleft) (by decide)) (.scan hright) hjoin,
    Session.runCalls_reachable .empty _, .join (.scan hl) (.scan hr),
    Store.conforms_of_tables ?_, .join .scan .scan, rfl, ⟨_, rfl, by cbv⟩, ?_⟩
  · rw [htables]
    exact List.forall_mem_cons.mpr ⟨List.forall_mem_singleton.mpr (.cons (.int _ _) .nil),
      List.forall_mem_singleton.mpr (List.forall_mem_singleton.mpr (.cons (.int _ _) .nil))⟩
  · intro h
    change (Scalar.int .int32 _).Conforms (.base (.int .int64) true) at h
    cases h

end Table

end TableQuery
