import Mathlib
import TableQuery.Proofs.Aggregation.Results
import TableQuery.Proofs.Session.Limit

/-! # Counting the rows of a table

The count of a table is the number of rows that the table itself gives (`execute_count`). An
aggregation without grouping expressions has one row even for no rows, so that there is a value;
counting evaluates nothing, so that it does not fail where the rows are there; and no limit applies
to a single value. -/

namespace TableQuery

/-! ### The aggregation -/

namespace RowAggregation

/-- **A count over no groups** is one row with the number of rows. -/
theorem rows_count {f : RowAggregate} (hf : f.function = .countStar) (hinput : f.input = none)
    (input : List Row) : rows ⟨[], [f]⟩ input = .ok [[Scalar.ofCount input.length]] := by
  have hinitial : f.initial = .count 0 := by rw [RowAggregate.initial, hf]; rfl
  have hfold := RowAggregate.fold_count_rows hf hinput 0 input
  rw [← hinitial, Nat.zero_add] at hfold
  exact rows_reduce hfold

end RowAggregation

theorem Scalar.exists_ofCount_eq {n : Nat} (h : n < 2 ^ 63) :
    ∃ v : IntType.Value .int64, v.val = n ∧ ofCount n = .int .int64 v := by
  refine ofCount_of_fits ⟨?_, ?_⟩
  · change (-9223372036854775808 : Int) ≤ n
    omega
  · change (n : Int) ≤ 9223372036854775807
    omega

namespace Table

/-! ### The query -/

/-- The schema of a count. -/
def countSchema : Schema := ⟨[("count", DataType.int64.nonNull)], by decide⟩

theorem gives_count (t : Table) (ref : TableRef) : t.count.Gives ref
    ⟨⟨.node (.aggregate [] [.countStar]) ref countSchema [t.root], t.suffixes⟩, .scalar⟩
    ⟨ref.index + 1⟩ := rfl

/-- The rows of a count. -/
theorem batchOf_count (s : Session) (p : Plan) (ref : TableRef) :
    s.batchOf (.node (.aggregate [] [.countStar]) ref countSchema [p]) =
      (s.batchOf p).map fun b => ⟨countSchema.types, [[Scalar.ofCount b.numRows]]⟩ := by
  let f : RowAggregate := ⟨.countStar, none, DataType.int64.nonNull⟩
  have hrun : ∀ b, (Operator.aggregate ⟨[], [f]⟩).run s.store.provider countSchema.types [b] =
      .ok ⟨countSchema.types, [[Scalar.ofCount b.numRows]]⟩ := by
    intro b
    change RowAggregation.rows ⟨[], [f]⟩ b.rows >>= Batch.ofRows countSchema.types = _
    rw [RowAggregation.rows_count rfl rfl]
    rfl
  have hbatch : s.batchOf (.node (.aggregate [] [.countStar]) ref countSchema [p]) =
      s.batchOf p >>= fun b => (Operator.aggregate ⟨[], [f]⟩).run s.store.provider
        countSchema.types [b] := Session.batchOf_unary rfl (fun _ => rfl) ref p
  rw [hbatch]
  cases s.batchOf p with
  | error e => rfl
  | ok b => exact hrun b

/-- **Counting counts**: for a table whose unbounded execution succeeds, the count can be built, and
executing it over the same store and backend gives the number of rows, whatever the settings are and
however many rows are wanted. -/
theorem execute_count {t : Table} {s : Session} {r : QueryResult}
    (hr : (Session.execute ⟨t, .table⟩ .unbounded).result s = .ok r) (hm : r.numRows < 2 ^ 63)
    (ref : TableRef) : ∃ q next, t.count.Gives ref q next ∧
      ∀ s' : Session, s'.capabilities = s.capabilities → s'.store = s.store → ∀ choice,
        ∃ v : IntType.Value .int64, v.val = r.numRows ∧ (Session.execute q choice).result s' =
          .ok ⟨countSchema, .scalar (.int .int64 v)⟩ := by
  refine ⟨_, _, t.gives_count ref, fun s' hcapabilities hstore choice => ?_⟩
  rw [Session.result_execute_unbounded] at hr
  obtain ⟨b, hb, -, -, houtput⟩ := Session.answer_eq_ok_iff.mp hr
  have hrows : r.numRows = b.numRows := QueryResult.numRows_eq_of_outputOf houtput
  obtain ⟨v, hv, hcount⟩ := Scalar.exists_ofCount_eq hm
  refine ⟨v, hv, ?_⟩
  rw [Session.result_execute_eq_answer (Query.gives_rootFor_scalar rfl _ choice _),
    Session.answer_congr hcapabilities hstore, Session.answer_eq_ok_iff]
  refine ⟨⟨countSchema.types, [[.int .int64 v]]⟩, ?_, rfl, rfl, rfl⟩
  rw [batchOf_count, hb, ← hcount, hrows]
  rfl

/-- The rows behind an offset, counted under a default limit that is less than their number. -/
theorem execute_count_skipped :
    let n : Int → Scalar := fun v => .int .int64 (Bounded.clamp _ _ (by decide) v)
    let stored : Schema := ⟨[("a", .int64)], by decide⟩
    let rows : { b : Batch // b.Rectangular } :=
      ⟨⟨stored.types, [[n 1], [.null], [n 3]]⟩, List.forall_mem_cons.mpr
        ⟨rfl, List.forall_mem_cons.mpr ⟨rfl, List.forall_mem_singleton.mpr rfl⟩⟩⟩
    let s := (Session.start ⟨true, .ansi⟩).runCalls [.create "t" stored (some rows) .error]
    let s' := { s with config := ⟨some (Bounded.clamp _ _ (by decide) 1), false, "_right"⟩ }
    let scanned : Plan := .node (.scan "t") ⟨0⟩ stored []
    let t : Table := ⟨.node (.limit none 1) ⟨1⟩ stored [scanned], .standard⟩
    let r : QueryResult := ⟨stored, .batch ⟨stored.types, [[.null], [n 3]]⟩⟩
    (Session.execute ⟨t, .table⟩ .unbounded).result s = .ok r ∧ r.numRows < 2 ^ 63 ∧
      ∃ q next, t.count.Gives ⟨2⟩ q next ∧
        (Session.execute q .default).result s' = .ok ⟨countSchema, .scalar (n 2)⟩ := by
  intro n stored rows s s' scanned t r
  have hr : (Session.execute ⟨t, .table⟩ .unbounded).result s = .ok r := rfl
  have hm : r.numRows < 2 ^ 63 := by decide
  obtain ⟨q, next, hq, hcount⟩ := execute_count hr hm ⟨2⟩
  obtain ⟨v, hv, hresult⟩ := hcount s' rfl rfl .default
  have hn : Scalar.int .int64 v = n 2 := congrArg _ (Bounded.ext hv)
  exact ⟨hr, hm, q, next, hq, hn ▸ hresult⟩

end Table

end TableQuery
