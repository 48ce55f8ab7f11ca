import TableQuery.Proofs.Operator.Rows
import TableQuery.Proofs.Scalar.Order
import TableQuery.Proofs.Session.Distinct

/-! # The most frequent values of a column

The most frequent values are found in three steps: the column is grouped by, the groups are put in
the descending order of their counts, and a limit is put on top. The sort is stable and the groups
come to it in the order of first occurrences, so that among keys that occur equally often the ones
that are seen first come first (`MostFrequent`, `mostFrequent_take`). Counts are 64-bit integers,
and their order is that of the numbers as long as these fit (`sort_frequencyRows`). The main
statement, `Table.execute_topk`, puts the steps together. -/

namespace TableQuery

/-! ### The most frequent keys -/

/-- **One key goes before another** among the keys of some values: it occurs more often, or as often
and is seen first. -/
def MoreFrequent (keys : List Key) (k l : Key) : Prop :=
  keys.count l < keys.count k ∨ keys.count l = keys.count k ∧ keys.idxOf k < keys.idxOf l

/-- **The most frequent keys**, as many as are wanted if there are that many. -/
structure MostFrequent (keys : List Key) (n : Nat) (most : List Key) : Prop where
  length_eq : most.length = min n keys.eraseDups.length
  nodup : most.Nodup
  subset : most ⊆ keys
  ordered : most.Pairwise (MoreFrequent keys)
  left_out : ∀ k ∈ most, ∀ l ∈ keys, l ∉ most → MoreFrequent keys k l

/-- The order of keys in which the more frequent ones come first. -/
def orderFrequency (keys : List Key) (k l : Key) : Ordering :=
  (compare (keys.count k) (keys.count l)).swap

theorem moreFrequent_iff {keys : List Key} {k l : Key} : MoreFrequent keys k l ↔
    OrderedOn.Before (orderFrequency keys) keys.idxOf k l := by
  unfold MoreFrequent OrderedOn.Before orderFrequency
  rw [← Nat.compare_swap, Ordering.swap_swap, Nat.compare_eq_lt, Nat.compare_eq_eq]

theorem orderedOn_orderFrequency (keys : List Key) :
    OrderedOn (fun _ => True) (orderFrequency keys) :=
  (OrderedOn.of_cmp (compareOn keys.count)).swap

/-- **The first keys in this order** are the most frequent ones. -/
theorem mostFrequent_take (keys : List Key) (n : Nat) : MostFrequent keys n
    ((keys.eraseDups.mergeSort fun k l => (orderFrequency keys k l).isLE).take n) := by
  have hperm := List.mergeSort_perm keys.eraseDups fun k l => (orderFrequency keys k l).isLE
  have hsorted := ((orderedOn_orderFrequency keys).pairwise_mergeSort (fun _ _ => trivial)
    (pairwise_idxOf_eraseDups keys)).imp moreFrequent_iff.mpr
  generalize (keys.eraseDups.mergeSort fun k l => (orderFrequency keys k l).isLE) = sorted at *
  constructor
  case length_eq => rw [List.length_take, hperm.length_eq]
  case nodup =>
    exact (hperm.nodup_iff.mpr (nodup_eraseDups keys)).sublist (List.take_sublist n sorted)
  case subset =>
    exact fun k hk => List.mem_eraseDups.mp (hperm.subset (List.mem_of_mem_take hk))
  case ordered => exact hsorted.sublist (List.take_sublist n sorted)
  case left_out =>
    intro k hk l hl hnot
    rw [← List.take_append_drop n sorted] at hsorted hperm
    have hmem := hperm.symm.subset (List.mem_eraseDups.mpr hl)
    exact (List.pairwise_append.mp hsorted).2.2 k hk l ((List.mem_append.mp hmem).resolve_left hnot)

/-! ### Rows sorted by their counts -/

/-- The descending order of a count behind the key. -/
def countKey : SortKey RowExpr := ⟨.column 1 DataType.int64.nonNull, true, false⟩

/-- Counts that fit 64 bits are ordered as numbers. -/
theorem orderRows_frequencyRow {vs : List Scalar} (h : IntType.int64.Fits vs.length) (k l : Key) :
    SortKey.orderRows [countKey] (Scalar.frequencyRow vs k) (Scalar.frequencyRow vs l) =
      orderFrequency (vs.map Scalar.key) k l := by
  have hfits : ∀ k, IntType.int64.Fits ((vs.map Scalar.key).count k) := by
    intro k
    have hle : (vs.map Scalar.key).count k ≤ vs.length :=
      List.count_le_length.trans_eq (List.length_map _)
    exact h.of_between (by omega) (by omega)
  obtain ⟨v, hv, hcount⟩ := Scalar.ofCount_of_fits (hfits k)
  obtain ⟨w, hw, hcount'⟩ := Scalar.ofCount_of_fits (hfits l)
  rw [Scalar.frequencyRow, Scalar.frequencyRow, hcount, hcount', orderFrequency,
    ← Scalar.compare_natCast, ← hv, ← hw]
  change ((compare v.val w.val).swap).then .eq = _
  cases compare v.val w.val <;> rfl

/-- **Sorting frequencies** by their counts puts the keys in the order in which the more frequent
ones come first. -/
theorem sort_frequencyRows {vs : List Scalar} (h : IntType.int64.Fits vs.length) :
    Row.sort [countKey] (Scalar.frequencyRows vs) =
      .ok (((vs.map Scalar.key).eraseDups.mergeSort fun k l =>
        (orderFrequency (vs.map Scalar.key) k l).isLE).map (Scalar.frequencyRow vs)) := by
  refine Row.sort_eq_ok_iff.mpr ⟨fun r _ k hk => ?_, ?_⟩
  · rw [List.mem_singleton.mp hk]
    exact ⟨_, rfl⟩
  · refine List.map_mergeSort fun k _ l _ => ?_
    rw [orderRows_frequencyRow h]

namespace Table

variable {t : Table} {column : String} {type : DataType} {next ref : TableRef}

/-! ### The steps of the query -/

/-- The groups of a column with their counts, sorted by these. -/
def sortedGroups (t : Table) (column : String) (type : DataType) (hname : "count" ≠ column)
    (ref : TableRef) : Plan :=
  .node (.order [(Expr.col "count").descending]) ⟨ref.index + 1⟩
    (groupsSchema column type "count" hname)
    [.node (.aggregate [.column (some t.ref) column] [.named "count" .countStar]) ref
      (groupsSchema column type "count" hname) [t.root]]

/-- The counts stand behind the column. -/
theorem place_count (hname : "count" ≠ column) :
    (groupsSchema column type "count" hname).index? "count" = some 1 ∧
      (groupsSchema column type "count" hname).type? "count" = some DataType.int64.nonNull :=
  Schema.index?_type?_iff.mpr rfl

theorem gives_topk (hcolumn : t.schema.type? column = some type) (hname : "count" ≠ column)
    (k : Nat) (ref : TableRef) : (t.topk column k).Gives ref
      ⟨.node (.limit (some k) 0) ⟨ref.index + 2⟩ (groupsSchema column type "count" hname)
        [t.sortedGroups column type hname ref], t.suffixes⟩ ⟨ref.index + 3⟩ := by
  have hcol : t.col column = .ok (.column (some t.ref) column) := by
    rw [col, Schema.typeOf_eq_ok_iff.mpr hcolumn]
    rfl
  have hkey : checkSortKey (groupsSchema column type "count" hname)
      (Expr.col "count").descending = .ok () := by
    change ((groupsSchema column type "count" hname).typeOf "count").map _ = _
    rw [Schema.typeOf_eq_ok_iff.mpr (place_count hname).2]
    rfl
  have hkeys : [(Expr.col "count").descending].forM
      (checkSortKey (groupsSchema column type "count" hname)) = .ok () :=
    Result.forM_eq_ok_iff.mpr fun k hk => List.mem_singleton.mp hk ▸ hkey
  refine Build.gives_ofResult_bind_iff.mpr ⟨_, hcol, ?_⟩
  refine Build.gives_bind_iff.mpr ⟨_, _, gives_aggregate
    (aggregateSchema_groups hcolumn hname (some t.ref)) ref, ?_⟩
  refine Build.gives_bind_iff.mpr ⟨_, _, Build.gives_ofResult_bind_iff.mpr
    ⟨(), hkeys, Sound.gives_derive_iff.mpr ⟨rfl, rfl⟩⟩, ?_⟩
  exact Sound.gives_derive_iff.mpr ⟨rfl, rfl⟩

/-- The sorted groups of a column. -/
theorem batchOf_sortedGroups (hchecked : t.root.Checked)
    (hcolumn : t.schema.type? column = some type) (hname : "count" ≠ column) :
    ∃ i, t.schema.index? column = some i ∧ ∀ (s : Session) (ref : TableRef),
      s.batchOf (t.sortedGroups column type hname ref) = s.batchOf t.root >>= fun b =>
        (Row.sort [countKey] (Scalar.frequencyRows (Row.valuesAt i b.rows))).map fun rows =>
          ⟨(groupsSchema column type "count" hname).types, rows⟩ := by
  obtain ⟨i, hi, hgroups⟩ := batchOf_groups hchecked hcolumn hname (some t.ref)
  refine ⟨i, hi, fun s ref => ?_⟩
  have haggregate : Plan.Checked (.node (.aggregate [.column (some t.ref) column]
      [.named "count" .countStar]) ref (groupsSchema column type "count" hname) [t.root]) :=
    .aggregate hchecked (aggregateSchema_groups hcolumn hname (some t.ref))
  have hkeys : SortKey.resolveAll (Scope.single (groupsSchema column type "count" hname))
      [(Expr.col "count").descending] = .ok [countKey] := by
    have hresolve : (Expr.col "count").resolve
        (Scope.single (groupsSchema column type "count" hname)) =
          .ok (.column 1 DataType.int64.nonNull) := by
      rw [Expr.col, Expr.resolve,
        Expr.resolve?_single none (place_count hname).1 (place_count hname).2]
    rw [SortKey.resolveAll, List.mapM_cons, Expr.descending, hresolve]
    rfl
  have hnode : ∀ child : OperatorPlan, child.schema = groupsSchema column type "count" hname →
      OperatorPlan.unaryNode (.order [(Expr.col "count").descending])
        (groupsSchema column type "count" hname) child =
          .ofResult (.ok (.node (.sort [countKey]) (groupsSchema column type "count" hname)
            [child])) := by
    intro child hchild
    simp only [OperatorPlan.unaryNode, hchild, hkeys]
    rfl
  rw [sortedGroups, Session.batchOf_unary_of_checked rfl haggregate hnode, hgroups]
  cases s.batchOf t.root with
  | error e => rfl
  | ok b =>
    change Row.sort [countKey] (Scalar.frequencyRows (Row.valuesAt i b.rows)) >>= _ =
      (Row.sort [countKey] (Scalar.frequencyRows (Row.valuesAt i b.rows))).map _
    cases Row.sort [countKey] (Scalar.frequencyRows (Row.valuesAt i b.rows)) <;> rfl

/-- **The most frequent values of a column.** For a table that calls make and a column of it that is
not named as the counts are, the query for the `k` most frequent values can be built. Whenever it is
executed, and no other number of rows is wanted, the rows of the table are there, and the result has
a row for each of the `k` most frequent keys of the column, as long as the number of rows fits 64
bits: the first value that has the key and the number of values that have it, the more frequent keys
first, and those that are equally frequent in the order of their first occurrences. -/
theorem execute_topk (ht : Built next t) (hcolumn : t.schema.type? column = some type)
    (hname : column ≠ "count") (k : Nat) (ref : TableRef) :
    ∃ i u next', t.schema.index? column = some i ∧ (t.topk column k).Gives ref u next' ∧
      ∀ (s : Session) (choice : LimitChoice) (r : QueryResult), (∀ n, choice ≠ .rows n) →
        (Session.execute ⟨u, .table⟩ choice).result s = .ok r →
        ∃ b, s.batchOf t.root = .ok b ∧ (IntType.int64.Fits b.numRows →
          ∃ most, MostFrequent ((Row.valuesAt i b.rows).map Scalar.key) k most ∧
            r = ⟨u.schema, .batch
              ⟨u.schema.types, most.map (Scalar.frequencyRow (Row.valuesAt i b.rows))⟩⟩) := by
  obtain ⟨i, hi, hsorted⟩ := batchOf_sortedGroups ht.sound.checked hcolumn hname.symm
  refine ⟨i, _, _, hi, gives_topk hcolumn hname.symm k ref, fun s choice r hchoice hr => ?_⟩
  rw [Session.result_execute_eq_answer (Query.gives_rootFor_of_limit rfl hchoice _ _)] at hr
  obtain ⟨_, hlimited, -, hschema, houtput⟩ := Session.answer_eq_ok_iff.mp hr
  rw [Session.batchOf_limit, hsorted] at hlimited
  obtain ⟨_, hgroups, rfl⟩ := Result.map_eq_ok_iff.mp hlimited
  obtain ⟨b, hb, hrows⟩ := Result.bind_eq_ok_iff.mp hgroups
  refine ⟨b, hb, fun hfits => ⟨_, mostFrequent_take _ k, ?_⟩⟩
  have hlength : (Row.valuesAt i b.rows).length = b.numRows := List.length_map _
  rw [sort_frequencyRows (hlength ▸ hfits)] at hrows
  cases hrows
  obtain ⟨schema, output⟩ := r
  cases hschema
  cases houtput
  rw [List.map_take]
  rfl

/-- Null is a value like any other here; of two values that occur once the one that is seen first is
there. The default limit does not apply. -/
theorem execute_topk_ties :
    let n : Int → Scalar := fun v => .int .int64 (Bounded.clamp _ _ (by decide) v)
    let stored : Schema := ⟨[("a", .int64)], by decide⟩
    let rows : { b : Batch // b.Rectangular } :=
      ⟨⟨stored.types, [[n 5], [.null], [n 7], [.null]]⟩,
        List.forall_mem_cons.mpr ⟨rfl, List.forall_mem_cons.mpr ⟨rfl,
          List.forall_mem_cons.mpr ⟨rfl, List.forall_mem_singleton.mpr rfl⟩⟩⟩⟩
    let s := (Session.start ⟨true, .ansi⟩).runCalls [.create "t" stored (some rows) .error]
    let s' := { s with config := ⟨some (Bounded.clamp _ _ (by decide) 1), false, "_right"⟩ }
    let t : Table := ⟨.node (.scan "t") ⟨0⟩ stored [], .standard⟩
    Built ⟨1⟩ t ∧ t.schema.type? "a" = some .int64 ∧ "a" ≠ "count" ∧
      ∃ u next', (t.topk "a" 2).Gives ⟨1⟩ u next' ∧
        (Session.execute ⟨u, .table⟩ .default).result s' = .ok ⟨u.schema, .batch
          ⟨u.schema.types, [[.null, n 2], [n 5, n 1]]⟩⟩ ∧
        ∃ most, MostFrequent [.int 5, .null, .int 7, .null] 2 most ∧
          most.map (Scalar.frequencyRow [n 5, .null, n 7, .null]) =
            [[.null, n 2], [n 5, n 1]] := by
  intro n stored rows s s' t
  have hscan : (Table.scan "t" stored).Gives ⟨0⟩ t ⟨1⟩ := rfl
  have ht : Built ⟨1⟩ t := .scan hscan
  have hcolumn : t.schema.type? "a" = some .int64 := rfl
  have hname : "a" ≠ "count" := by decide
  obtain ⟨i, u, next', hi, hgives, hexecute⟩ := execute_topk ht hcolumn hname 2 ⟨1⟩
  obtain rfl : 0 = i := Option.some.inj hi
  obtain rfl := Except.ok.inj
    (Prod.mk.inj (hgives.symm.trans (gives_topk hcolumn hname.symm 2 ⟨1⟩))).1
  have hchoice : ∀ m, LimitChoice.default ≠ .rows m := nofun
  have hrows : s'.batchOf t.root = .ok rows.1 := rfl
  have hsort : Row.sort [countKey] [[n 5, n 1], [.null, n 2], [n 7, n 1]] =
      .ok [[.null, n 2], [n 5, n 1], [n 7, n 1]] := by
    cbv
  have hr : (Session.execute ⟨⟨.node (.limit (some 2) 0) ⟨3⟩
      (groupsSchema "a" .int64 "count" hname.symm) [t.sortedGroups "a" .int64 hname.symm ⟨1⟩],
        .standard⟩, .table⟩ .default).result s' =
        .ok ⟨groupsSchema "a" .int64 "count" hname.symm, .batch
          ⟨(groupsSchema "a" .int64 "count" hname.symm).types, [[.null, n 2], [n 5, n 1]]⟩⟩ := by
    obtain ⟨i, hi, hsorted⟩ := batchOf_sortedGroups ht.sound.checked hcolumn hname.symm
    obtain rfl : 0 = i := Option.some.inj hi
    have hbatch : s'.batchOf (t.sortedGroups "a" .int64 hname.symm ⟨1⟩) =
        .ok ⟨(groupsSchema "a" .int64 "count" hname.symm).types,
          [[.null, n 2], [n 5, n 1], [n 7, n 1]]⟩ := by
      rw [hsorted, hrows]
      exact congrArg (Except.map _) hsort
    rw [Session.result_execute_eq_answer (Query.gives_rootFor_of_limit rfl hchoice _ _),
      Session.answer_eq_ok_iff]
    refine ⟨_, ?_, rfl, rfl, rfl⟩
    rw [Session.batchOf_limit, hbatch]
    rfl
  obtain ⟨b, hb, hmost⟩ := hexecute s' .default _ hchoice hr
  obtain rfl := Except.ok.inj (hrows.symm.trans hb)
  obtain ⟨most, hfrequent, hresult⟩ := hmost (by decide)
  refine ⟨ht, hcolumn, hname, _, next', hgives, hr, most, hfrequent, ?_⟩
  simp only [QueryResult.mk.injEq, QueryOutput.batch.injEq, Batch.mk.injEq] at hresult
  exact hresult.2.2.symm

end Table

end TableQuery
