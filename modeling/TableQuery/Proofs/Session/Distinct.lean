import TableQuery.Proofs.Aggregation.Frequencies
import TableQuery.Proofs.Operator.Rows
import TableQuery.Proofs.Session.Limit

/-! # Groups and distinct values of a column

The rows of an aggregation over a checked plan are computed from those of the plan
(`Session.batchOf_aggregate`). A single aggregate over a whole table is its state over these rows
(`Table.execute_reduce`), and grouping by a column and counting rows gives the frequencies of the
column (`Table.batchOf_groups`). Counting the different values of a column, counting its values and
grouping by it therefore agree (`Table.execute_countDistinct`), whatever the values are, since
groups and distinct counting both go by keys. -/

namespace TableQuery

/-! ### Aggregations over a plan -/

namespace Session

variable {s : Session} {c : Plan}

/-- The rows of an aggregation, from those of a checked plan. -/
theorem batchOf_aggregate {groupBy metrics : List Expr} {keys : List RowExpr}
    {aggregates : List RowAggregate} (hc : c.Checked)
    (hkeys : Expr.resolveAll (Scope.single c.schema) groupBy = .ok keys)
    (hmetrics : metrics.mapM (Expr.resolveAggregate (Scope.single c.schema)) = .ok aggregates)
    (ref : TableRef) (schema : Schema) :
    s.batchOf (.node (.aggregate groupBy metrics) ref schema [c]) =
      s.batchOf c >>= fun b =>
        RowAggregation.rows ⟨keys, aggregates⟩ b.rows >>= Batch.ofRows schema.types := by
  have hnode : ∀ child : OperatorPlan, child.schema = c.schema →
      OperatorPlan.unaryNode (.aggregate groupBy metrics) schema child =
        .ofResult (.ok (.node (.aggregate ⟨keys, aggregates⟩) schema [child])) := by
    intro child hchild
    simp only [OperatorPlan.unaryNode, hchild, hkeys, hmetrics]
    rfl
  exact batchOf_unary_of_checked rfl hc hnode ref

end Session

namespace Table

variable {t : Table} {ref next : TableRef} {schema : Schema}

theorem gives_aggregate {groupBy metrics : List Expr}
    (h : aggregateSchema t.schema groupBy metrics = .ok schema) (ref : TableRef) :
    (t.aggregate groupBy metrics).Gives ref
      ⟨.node (.aggregate groupBy metrics) ref schema [t.root], t.suffixes⟩ ⟨ref.index + 1⟩ :=
  Build.gives_ofResult_bind_iff.mpr ⟨schema, h, Sound.gives_derive_iff.mpr ⟨rfl, rfl⟩⟩

/-- The schema of columns whose names differ. -/
theorem outputSchema_eq_ok {fields : List (String × DataType)}
    (h : (fields.map Prod.fst).Nodup) : outputSchema fields = .ok ⟨fields, h⟩ := by
  rw [outputSchema, Schema.firstRepeated?_eq_none_iff.mpr h]
  exact Schema.ofFields_eq_ok_iff.mpr rfl

/-- The schema of a single metric. -/
def metricSchema (field : String × DataType) : Schema := ⟨[field], List.nodup_singleton _⟩

/-- **A single aggregate over a table** is its state over the rows of the table, for every limit. -/
theorem execute_reduce (hchecked : t.root.Checked) {metric : Expr} {field : String × DataType}
    {f : RowAggregate} (hfield : metricField t.schema metric = .ok field)
    (hf : metric.resolveAggregate (Scope.single t.schema) = .ok f) (ref : TableRef) :
    ∃ q next, (t.reduce metric).Gives ref q next ∧ q.table.schema = metricSchema field ∧
      ∀ (s : Session) (b : Batch) (state : AggregateState) (choice : LimitChoice),
        s.batchOf t.root = .ok b → f.fold f.initial b.rows = .ok state →
        (Session.execute q choice).result s = .ok ⟨metricSchema field, .scalar state.result⟩ := by
  have hschema : aggregateSchema t.schema [] [metric] = .ok (metricSchema field) := by
    rw [aggregateSchema, List.mapM_nil, List.mapM_cons, hfield]
    change outputSchema [field] = .ok (metricSchema field)
    exact outputSchema_eq_ok _
  refine ⟨⟨⟨.node (.aggregate [] [metric]) ref (metricSchema field) [t.root], t.suffixes⟩, .scalar⟩,
    _, Build.gives_bind_iff.mpr ⟨_, _, gives_aggregate hschema ref, Build.gives_pure_iff.mpr
      ⟨rfl, rfl⟩⟩, rfl, fun s b state choice hb hfold => ?_⟩
  have hmetrics : [metric].mapM (Expr.resolveAggregate (Scope.single t.root.schema)) = .ok [f] := by
    rw [List.mapM_cons, ← schema, hf]
    rfl
  rw [Session.result_execute_eq_answer (Query.gives_rootFor_scalar rfl _ choice _),
    Session.answer_eq_ok_iff]
  refine ⟨⟨(metricSchema field).types, [[state.result]]⟩, ?_, rfl, rfl, rfl⟩
  rw [Session.batchOf_aggregate hchecked rfl hmetrics, hb, Result.ok_bind,
    RowAggregation.rows_reduce hfold]
  rfl

/-! ### Groups of a column -/

section Groups

variable {column name : String} {type : DataType}

/-- The schema of a column with the number of its rows under a name. -/
def groupsSchema (column : String) (type : DataType) (name : String) (h : name ≠ column) : Schema :=
  ⟨[(column, type), (name, DataType.int64.nonNull)], by simpa using h.symm⟩

theorem aggregateSchema_groups (hcolumn : t.schema.type? column = some type) (hname : name ≠ column)
    (table : Option TableRef) :
    aggregateSchema t.schema [.column table column] [.named name .countStar] =
      .ok (groupsSchema column type name hname) := by
  have hkey : groupField t.schema (.column table column) = .ok (column, type) := by
    have htype : (Expr.column table column).typeIn t.schema = .ok type :=
      Schema.typeOf_eq_ok_iff.mpr hcolumn
    rw [groupField, outputField, htype]
    rfl
  rw [aggregateSchema, List.mapM_cons, hkey]
  exact outputSchema_eq_ok _

/-- **Grouping a table by a column** and counting rows gives the frequencies of the column. -/
theorem batchOf_groups (hchecked : t.root.Checked) (hcolumn : t.schema.type? column = some type)
    (hname : name ≠ column) (table : Option TableRef) :
    ∃ i, t.schema.index? column = some i ∧ ∀ (s : Session) (ref : TableRef),
      s.batchOf (.node (.aggregate [.column table column] [.named name .countStar]) ref
          (groupsSchema column type name hname) [t.root]) =
        (s.batchOf t.root).map fun b => ⟨(groupsSchema column type name hname).types,
          Scalar.frequencyRows (Row.valuesAt i b.rows)⟩ := by
  obtain ⟨i, hi, -⟩ := Schema.index?_of_type? hcolumn
  refine ⟨i, hi, fun s ref => ?_⟩
  have hresolve : Scope.resolve? (Scope.single t.root.schema) ⟨table, column⟩ = some (i, type) :=
    Expr.resolve?_single table hi hcolumn
  have hkeys : Expr.resolveAll (Scope.single t.root.schema) [.column table column] =
      .ok [.column i type] := by
    rw [Expr.resolveAll, Expr.resolve, hresolve]
    rfl
  have hwidth : ∀ vs, ∀ r ∈ Scalar.frequencyRows vs,
      r.length = (groupsSchema column type name hname).types.length := by
    intro vs r hr
    obtain ⟨k, -, rfl⟩ := List.mem_map.mp hr
    rfl
  have hmetrics : [Expr.named name .countStar].mapM
      (Expr.resolveAggregate (Scope.single t.root.schema)) =
        .ok [⟨.countStar, none, DataType.int64.nonNull⟩] := rfl
  rw [Session.batchOf_aggregate hchecked hkeys hmetrics]
  cases s.batchOf t.root with
  | error e => rfl
  | ok b =>
    rw [Result.ok_bind, RowAggregation.rows_frequencies rfl rfl, Result.ok_bind,
      Batch.ofRows_eq_ok_iff.mpr ⟨hwidth _, rfl⟩]
    rfl

/-- An aggregate of a column reads its position. -/
theorem metric_column {f : AggregateFunction} {result : DataType}
    (hf : f.resultType type = .ok result) (hcolumn : t.schema.type? column = some type)
    (table : Option TableRef) {i : Nat} (hi : t.schema.index? column = some i) :
    (∃ field, metricField t.schema (.aggregate f (some (.column table column))) = .ok field) ∧
      (Expr.aggregate f (some (.column table column))).resolveAggregate (Scope.single t.schema) =
        .ok ⟨f, some (.column i type), result⟩ := by
  have htype : (Expr.aggregate f (some (.column table column))).typeIn t.schema = .ok result := by
    have hinput : (Expr.column table column).typeIn t.schema = .ok type :=
      Schema.typeOf_eq_ok_iff.mpr hcolumn
    rw [Expr.typeIn, Expr.aggregateType, Expr.inputTypeIn, hinput]
    exact hf
  constructor
  · refine ⟨(Expr.outputName (.aggregate f (some (.column table column))), result), ?_⟩
    change ((Expr.aggregate f (some (.column table column))).typeIn t.schema).map _ = _
    rw [htype]
    rfl
  · change Expr.resolveCall (Scope.single t.schema) f (some (.column table column)) = _
    have hresolve : (Expr.column table column).resolve (Scope.single t.schema) =
        .ok (.column i type) := by
      rw [Expr.resolve, Expr.resolve?_single table hi hcolumn]
    rw [Expr.resolveCall, Option.mapM_some, hresolve]
    change f.resultType type >>= _ = _
    rw [hf]
    rfl

/-- **Grouping by a column and counting its values agree.** For a table that calls make and a column
of it, counting the rows of each group under another name, counting the different values and
counting the values can be built. Whenever the groups are there, executing the counts over the same
store and backend gives the number of groups whose key is not null and the number of rows in them,
whatever the settings are and however many rows are wanted. -/
theorem execute_countDistinct {next : TableRef} (ht : Built next t)
    (hcolumn : t.schema.type? column = some type) (hname : name ≠ column)
    (table : Option TableRef) (ref ref' ref'' : TableRef) :
    ∃ groups distinct values next next' next'',
      (t.aggregate [.column table column] [.named name .countStar]).Gives ref groups next ∧
      (t.reduce (.aggregate .countDistinct (some (.column table column)))).Gives ref' distinct
        next' ∧
      (t.reduce (.aggregate .count (some (.column table column)))).Gives ref'' values next'' ∧
      ∀ (s : Session) (r : QueryResult),
        (Session.execute ⟨groups, .table⟩ .unbounded).result s = .ok r →
        ∃ (b : Batch) (ns : List Nat), r.output = .batch b ∧
          (Row.keyed b.rows).map (·.getD 1 .null) = ns.map Scalar.ofCount ∧
          ∀ s' : Session, s'.capabilities = s.capabilities → s'.store = s.store → ∀ choice,
            (Session.execute distinct choice).result s' =
              .ok ⟨distinct.table.schema, .scalar (.ofCount (Row.keyed b.rows).length)⟩ ∧
            (Session.execute values choice).result s' =
              .ok ⟨values.table.schema, .scalar (.ofCount ns.sum)⟩ := by
  have hchecked := ht.sound.checked
  obtain ⟨i, hi, hgroups⟩ := batchOf_groups hchecked hcolumn hname table
  obtain ⟨⟨field, hfield⟩, hresolve⟩ := metric_column (f := .countDistinct) rfl hcolumn table hi
  obtain ⟨⟨field', hfield'⟩, hresolve'⟩ := metric_column (f := .count) rfl hcolumn table hi
  obtain ⟨distinct, next', hdistinct, hschema, hexecute⟩ :=
    execute_reduce hchecked hfield hresolve ref'
  obtain ⟨values, next'', hvalues, hschema', hexecute'⟩ :=
    execute_reduce hchecked hfield' hresolve' ref''
  refine ⟨_, distinct, values, _, next', next'',
    gives_aggregate (aggregateSchema_groups hcolumn hname table) ref, hdistinct, hvalues,
    fun s r hr => ?_⟩
  rw [Session.result_execute_unbounded] at hr
  obtain ⟨_, hbatch, -, -, houtput⟩ := Session.answer_eq_ok_iff.mp hr
  rw [hgroups] at hbatch
  obtain ⟨b, hb, rfl⟩ := Result.map_eq_ok_iff.mp hbatch
  obtain ⟨ns, hns, hsum⟩ := Scalar.exists_sum_keyed_frequencyRows (Row.valuesAt i b.rows)
  refine ⟨_, ns, (Except.ok.inj houtput).symm, hns, fun s' hcapabilities hstore choice => ?_⟩
  have hb' : s'.batchOf t.root = .ok b := (Session.batchOf_congr hcapabilities hstore _).trans hb
  have heval : ∀ r ∈ b.rows, ∃ v, (RowExpr.column i type).eval r = .ok v := fun _ _ => ⟨_, rfl⟩
  constructor
  · rw [hschema, hexecute s' b _ choice hb' (RowAggregate.fold_countDistinct rfl rfl heval),
      AggregateState.result, List.length_reverse, RowAggregate.inputsOf_column,
      Scalar.length_keyed_frequencyRows]
  · rw [hschema', hexecute' s' b _ choice hb' (RowAggregate.fold_count rfl rfl heval),
      AggregateState.result, RowAggregate.inputsOf_column, hsum]

/-- Null is a group, but no value that is counted. The default limit cuts neither count. -/
theorem execute_countDistinct_nulls :
    let n : Int → Scalar := fun v => .int .int64 (Bounded.clamp _ _ (by decide) v)
    let stored : Schema := ⟨[("a", .int64)], by decide⟩
    let rows : { b : Batch // b.Rectangular } :=
      ⟨⟨stored.types, [[n 7], [.null], [n 5], [n 7], [.null]]⟩,
        List.forall_mem_cons.mpr ⟨rfl, List.forall_mem_cons.mpr ⟨rfl, List.forall_mem_cons.mpr
          ⟨rfl, List.forall_mem_cons.mpr ⟨rfl, List.forall_mem_singleton.mpr rfl⟩⟩⟩⟩⟩
    let s := (Session.start ⟨true, .ansi⟩).runCalls [.create "t" stored (some rows) .error]
    let s' := { s with config := ⟨some (Bounded.clamp _ _ (by decide) 1), false, "_right"⟩ }
    let t : Table := ⟨.node (.scan "t") ⟨0⟩ stored [], .standard⟩
    let a := Expr.column (some ⟨0⟩) "a"
    Built ⟨1⟩ t ∧ t.schema.type? "a" = some .int64 ∧ "n" ≠ "a" ∧
      ∃ groups distinct values next next' next'',
        (t.aggregate [a] [.named "n" .countStar]).Gives ⟨1⟩ groups next ∧
        (t.reduce (.aggregate .countDistinct (some a))).Gives ⟨2⟩ distinct next' ∧
        (t.reduce (.aggregate .count (some a))).Gives ⟨3⟩ values next'' ∧
        (Session.execute ⟨groups, .table⟩ .unbounded).result s = .ok ⟨groups.schema, .batch
          ⟨groups.schema.types, [[n 7, n 2], [.null, n 2], [n 5, n 1]]⟩⟩ ∧
        (Session.execute distinct .default).result s' =
          .ok ⟨distinct.table.schema, .scalar (n 2)⟩ ∧
        (Session.execute values .default).result s' =
          .ok ⟨values.table.schema, .scalar (n 3)⟩ := by
  intro n stored rows s s' t a
  have hscan : (Table.scan "t" stored).Gives ⟨0⟩ t ⟨1⟩ := rfl
  have ht : Built ⟨1⟩ t := .scan hscan
  have hcolumn : t.schema.type? "a" = some .int64 := rfl
  have hname : "n" ≠ "a" := by decide
  obtain ⟨groups, distinct, values, next, next', next'', hgroups, hdistinct, hvalues, hexecute⟩ :=
    execute_countDistinct ht hcolumn hname (some ⟨0⟩) ⟨1⟩ ⟨2⟩ ⟨3⟩
  have hgives := gives_aggregate (aggregateSchema_groups hcolumn hname (some ⟨0⟩)) ⟨1⟩
  obtain rfl := Except.ok.inj (Prod.mk.inj (hgroups.symm.trans hgives)).1
  have hr : (Session.execute ⟨⟨.node (.aggregate [a] [.named "n" .countStar]) ⟨1⟩
      (groupsSchema "a" .int64 "n" hname) [t.root], .standard⟩, .table⟩ .unbounded).result s =
        .ok ⟨groupsSchema "a" .int64 "n" hname, .batch ⟨(groupsSchema "a" .int64 "n" hname).types,
          [[n 7, n 2], [.null, n 2], [n 5, n 1]]⟩⟩ := rfl
  obtain ⟨b, ns, hb, hns, hcounts⟩ := hexecute s _ hr
  obtain ⟨hdistinct', hvalues'⟩ := hcounts s' rfl rfl .default
  cases hb
  have hsum : ns.sum = 3 := by
    have hns : ns.map Scalar.ofCount = [.ofCount 2, .ofCount 1] := hns.symm
    obtain ⟨k, _, rfl, hk, hns⟩ := List.map_eq_cons_iff.mp hns
    obtain ⟨m, _, rfl, hm, hns⟩ := List.map_eq_cons_iff.mp hns
    rw [Scalar.ofCount_inj_of_fits (by decide) hk, Scalar.ofCount_inj_of_fits (by decide) hm,
      List.map_eq_nil_iff.mp hns]
    rfl
  have hlength : (Row.keyed [[n 7, n 2], [.null, n 2], [n 5, n 1]]).length = 2 := rfl
  have htwo : Scalar.ofCount 2 = n 2 := rfl
  have hthree : Scalar.ofCount 3 = n 3 := rfl
  rw [hlength, htwo] at hdistinct'
  rw [hsum, hthree] at hvalues'
  exact ⟨ht, hcolumn, hname, _, distinct, values, _, next', next'', hgroups, hdistinct, hvalues, hr,
    hdistinct', hvalues'⟩

end Groups

end Table

end TableQuery
