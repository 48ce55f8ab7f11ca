import Mathlib
import TableQuery.Proofs.Operator.Ordering
import TableQuery.Proofs.Sql.Rendering
import TableQuery.Proofs.Store.Invariant

/-! # Orderings folded into the SELECT above

A filter over a sort is written as one SELECT, which filters the input of the sort and sorts what is
left. The rows are the same, in the same order, if every key has values of one family on the input:
a stable sort leaves rows that tie as they stand, so it does not matter whether the others are taken
out before it or behind it (`OrderedOn.filter_mergeSort`). Sorting first evaluates the keys on all
rows, and this is all that the two differ in (`Row.bind_sort_keepRows_iff`). The main statement is
`Built.filter_orderBy`. -/

namespace TableQuery

/-! ### Rows -/

namespace Row

variable {keys : List (SortKey RowExpr)} {x : RowExpr} {rows out : List Row}

/-- **Filtering sorted rows is sorting filtered rows**, where the keys have values on all rows. -/
theorem bind_sort_keepRows_iff (hfamilies : ∀ k ∈ keys, k.InFamily rows) :
    (sort keys rows >>= x.keepRows) = .ok out ↔
      (x.keepRows rows >>= sort keys) = .ok out ∧
        ∀ r ∈ rows, ∀ k ∈ keys, ∃ v, k.expr.eval r = .ok v := by
  have hordered : OrderedOn (· ∈ rows) (SortKey.orderRows keys) :=
    SortKey.orderedOn_orderAll hfamilies
  have hfilter := hordered.filter_mergeSort (fun _ => id) fun r => RowExpr.isTrue (x.valueOn r)
  simp only [Result.bind_eq_ok_iff, sort_eq_ok_iff, RowExpr.keepRows_eq_ok_iff]
  constructor
  · rintro ⟨sorted, ⟨hkeys, rfl⟩, hvalues, rfl⟩
    refine ⟨⟨_, ⟨fun r hr => hvalues r (List.mem_mergeSort.mpr hr), rfl⟩, ?_, hfilter⟩, hkeys⟩
    exact fun r hr => hkeys r (List.mem_of_mem_filter hr)
  · rintro ⟨⟨kept, ⟨hvalues, rfl⟩, -, rfl⟩, hkeys⟩
    exact ⟨_, ⟨hkeys, rfl⟩, fun r hr => hvalues r (List.mem_mergeSort.mp hr), hfilter.symm⟩

end Row

/-! ### Operators -/

/-- An operator that makes rows of those of its input, under the same types. -/
def Operator.MakesRows (op : Operator) (f : List Row → Result (List Row)) : Prop :=
  ∀ (provider : RowProvider) (types : List DataType) (b : Batch),
    op.run provider types [b] = (f b.rows).map (⟨b.types, ·⟩)

theorem Operator.makesRows_filter (x : RowExpr) : (filter x).MakesRows x.keepRows := by
  intro provider types b
  change (x.keepRows b.rows >>= fun rows => .ok (⟨b.types, rows⟩ : Batch)) = _
  cases x.keepRows b.rows <;> rfl

theorem Operator.makesRows_sort (keys : List (SortKey RowExpr)) :
    (sort keys).MakesRows (Row.sort keys) := by
  intro provider types b
  change (Row.sort keys b.rows >>= fun rows => .ok (⟨b.types, rows⟩ : Batch)) = _
  cases Row.sort keys b.rows <;> rfl

namespace OperatorPlan

variable {provider : RowProvider} {child : OperatorPlan} {input b : Batch}

/-- Two such operators, one on top of the other. -/
theorem run_of_makesRows {upper lower : Operator} {f g : List Row → Result (List Row)}
    (hupper : upper.MakesRows g) (hlower : lower.MakesRows f)
    (hinput : child.run provider = .ok input) (schema : Schema) :
    (node upper schema [node lower schema [child]]).run provider =
      (f input.rows >>= g).map (⟨input.types, ·⟩) := by
  rw [run_unary, run_unary, hinput, Result.ok_bind, hlower]
  cases f input.rows with
  | error e => rfl
  | ok rows => exact hupper provider schema.types ⟨input.types, rows⟩

/-- **A filter on top of a sort** gives the batch of the sort on top of the filter, where the keys
have values on all rows of the input. -/
theorem run_filter_sort_iff {x : RowExpr} {keys : List (SortKey RowExpr)} (schema : Schema)
    (hinput : child.run provider = .ok input) (hfamilies : ∀ k ∈ keys, k.InFamily input.rows) :
    (node (.filter x) schema [node (.sort keys) schema [child]]).run provider = .ok b ↔
      (node (.sort keys) schema [node (.filter x) schema [child]]).run provider = .ok b ∧
        ∀ r ∈ input.rows, ∀ k ∈ keys, ∃ v, k.expr.eval r = .ok v := by
  have hfilter := Operator.makesRows_filter x
  have hsort := Operator.makesRows_sort keys
  rw [run_of_makesRows hfilter hsort hinput, run_of_makesRows hsort hfilter hinput,
    Result.map_eq_ok_iff, Result.map_eq_ok_iff]
  simp only [Row.bind_sort_keepRows_iff hfamilies]
  constructor
  · rintro ⟨out, ⟨hout, hkeys⟩, hb⟩
    exact ⟨⟨out, hout, hb⟩, hkeys⟩
  · rintro ⟨⟨out, hout, hb⟩, hkeys⟩
    exact ⟨out, ⟨hout, hkeys⟩, hb⟩

end OperatorPlan

/-! ### Tables -/

namespace Table

variable {ref next : TableRef} {t u : Table} {predicate : Expr} {keys : List (SortKey Expr)}

theorem gives_filter_iff : (t.filter predicate).Gives ref u next ↔
    filterSchema t.schema predicate = .ok t.schema ∧
      u = ⟨.node (.filter predicate) ref t.schema [t.root], t.suffixes⟩ ∧
      next = ⟨ref.index + 1⟩ := by
  rw [filter, Build.gives_ofResult_bind_iff]
  simp only [Sound.gives_derive_iff]
  constructor
  · rintro ⟨schema, hschema, h⟩
    obtain rfl := schema_of_filterSchema hschema
    exact ⟨hschema, h⟩
  · rintro ⟨hschema, h⟩
    exact ⟨_, hschema, h⟩

theorem gives_orderBy_iff : (t.orderBy keys).Gives ref u next ↔
    keys.forM (checkSortKey t.schema) = .ok () ∧
      u = ⟨.node (.order keys) ref t.schema [t.root], t.suffixes⟩ ∧ next = ⟨ref.index + 1⟩ := by
  rw [orderBy, Build.gives_ofResult_bind_iff]
  simp only [Sound.gives_derive_iff]
  exact ⟨by rintro ⟨⟨⟩, h⟩; exact h, fun h => ⟨(), h⟩⟩

end Table

namespace OperatorPlan

variable {op : OperatorPlan} {c : Plan}

theorem ofPlan_filter (hop : ofPlan c = .ok op) {predicate : Expr} {x : RowExpr}
    (hx : predicate.resolve (Scope.single op.schema) = .ok x) (ref : TableRef) (schema : Schema) :
    ofPlan (.node (.filter predicate) ref schema [c]) = .ok (.node (.filter x) schema [op]) := by
  rw [ofPlan_unary rfl fun _ => rfl, hop, Result.ok_bind, hx]
  rfl

theorem ofPlan_order (hop : ofPlan c = .ok op) {keys : List (SortKey Expr)}
    {xs : List (SortKey RowExpr)}
    (hxs : SortKey.resolveAll (Scope.single op.schema) keys = .ok xs) (ref : TableRef)
    (schema : Schema) :
    ofPlan (.node (.order keys) ref schema [c]) = .ok (.node (.sort xs) schema [op]) := by
  rw [ofPlan_unary rfl fun _ => rfl, hop, Result.ok_bind, hxs]
  rfl

end OperatorPlan

namespace Table

/-- **Folding an ordering into the SELECT above it is sound**: for a filter over a sort over a table
that calls can build, the sort over the filter can be built too and has the same columns. The filter
over the sort is written as the SELECT that reads the table, filters and then sorts. Where the table
gives rows on which every key has nulls and values of one family, the two plans give the same rows
in the same order; the filter over the sort fails in addition where a key has no value on some row
of the table. -/
theorem Built.filter_orderBy {ref next : TableRef} {t u : Table} (h : Built ref t)
    {keys : List (SortKey Expr)} {predicate : Expr}
    (hu : (t.orderBy keys >>= fun ordered => ordered.filter predicate).Gives ref u next) :
    ∃ v, (t.filter predicate >>= fun filtered => filtered.orderBy keys).Gives ref v next ∧
      v.schema = u.schema ∧
      (∀ (d : Sql.Dialect) (source : String), d.render .source t.root = .ok source →
        ∃ condition order, d.expr .single predicate = .ok condition ∧
          d.repeatedOrderBy t.ref (some keys) = .ok order ∧ d.render .statement u.root =
            .ok ("SELECT * FROM " ++ source ++ " WHERE " ++ condition ++ order)) ∧
      ∃ xs, SortKey.resolveAll (Scope.single t.schema) keys = .ok xs ∧
        ∀ provider op input, OperatorPlan.ofPlan t.root = .ok op → op.run provider = .ok input →
          (∀ k ∈ xs, k.InFamily input.rows) → ∃ opu opv,
            OperatorPlan.ofPlan u.root = .ok opu ∧ OperatorPlan.ofPlan v.root = .ok opv ∧
            ∀ b, opu.run provider = .ok b ↔ opv.run provider = .ok b ∧
              ∀ r ∈ input.rows, ∀ k ∈ xs, ∃ w, k.expr.eval r = .ok w := by
  obtain ⟨ordered, mid, horder, hfilter⟩ := Build.gives_bind_iff.mp hu
  obtain ⟨hcheck, rfl, rfl⟩ := gives_orderBy_iff.mp horder
  obtain ⟨hschema, rfl, rfl⟩ := gives_filter_iff.mp hfilter
  obtain ⟨xs, hxs⟩ := OperatorPlan.resolveAll_of_checkSortKey hcheck
  obtain ⟨x, hx⟩ := OperatorPlan.resolve_of_filterSchema hschema
  refine ⟨_, Build.gives_bind_iff.mpr ⟨_, _, gives_filter_iff.mpr ⟨hschema, rfl, rfl⟩,
    gives_orderBy_iff.mpr ⟨hcheck, rfl, rfl⟩⟩, rfl, fun d source hsource => ?_, xs, hxs,
    fun provider op input hop hinput hfamilies => ?_⟩
  · obtain ⟨condition, hcondition⟩ := d.exists_expr d.findsAll_single predicate
    obtain ⟨order, horder⟩ := d.exists_repeatedOrderBy t.ref (some keys)
    refine ⟨condition, order, hcondition, horder, ?_⟩
    have hroot : d.repeatedOrderBy t.root.ref (some keys) = .ok order := horder
    rw [Sql.Dialect.render, hsource, Result.ok_bind, hcondition, Result.ok_bind, hroot]
    rfl
  · have hopSchema : op.schema = t.schema :=
      (OperatorPlan.executes_of_ofPlan h.sound.checked hop hinput).schema_eq
    have hsorted := OperatorPlan.ofPlan_order hop (hopSchema ▸ hxs) ref t.schema
    have hkept := OperatorPlan.ofPlan_filter hop (hopSchema ▸ hx) ref t.schema
    exact ⟨_, _, OperatorPlan.ofPlan_filter hsorted hx _ t.schema,
      OperatorPlan.ofPlan_order hkept hxs _ t.schema,
      fun b => OperatorPlan.run_filter_sort_iff t.schema hinput hfamilies⟩

/-- Rows that tie and a null key, with a row taken out. -/
theorem Built.filter_orderBy_ties :
    let n : Int → Scalar := fun v => .int .int64 (Bounded.clamp _ _ (by decide) v)
    let stored : Schema := ⟨[("a", .int64), ("b", .int64)], by decide⟩
    let rows : { b : Batch // b.Rectangular } :=
      ⟨⟨stored.types, [[n 1, .null], [n 2, n 7], [n 3, n 5], [n 4, n 7]]⟩,
        List.forall_mem_cons.mpr ⟨rfl, List.forall_mem_cons.mpr ⟨rfl,
          List.forall_mem_cons.mpr ⟨rfl, List.forall_mem_singleton.mpr rfl⟩⟩⟩⟩
    let s := (Session.start ⟨true, .ansi⟩).runCalls [.create "t" stored (some rows) .error]
    let keys : List (SortKey Expr) := [⟨.col "b", true, true⟩]
    let predicate : Expr := .compare .notEq (.col "a") (.literal (n 3))
    let scanned : Plan := .node (.scan "t") ⟨0⟩ stored []
    let ordered : Plan := .node (.order keys) ⟨1⟩ stored [scanned]
    let t : Table := ⟨scanned, .standard⟩
    let u : Table := ⟨.node (.filter predicate) ⟨2⟩ stored [ordered], .standard⟩
    let b : Batch := ⟨stored.types, [[n 1, .null], [n 2, n 7], [n 4, n 7]]⟩
    Built ⟨1⟩ t ∧
      (t.orderBy keys >>= fun ordered => ordered.filter predicate).Gives ⟨1⟩ u ⟨3⟩ ∧
      ∃ v, (t.filter predicate >>= fun filtered => filtered.orderBy keys).Gives ⟨1⟩ v ⟨3⟩ ∧
        ∃ op input xs opv, OperatorPlan.ofPlan t.root = .ok op ∧
          op.run s.store.provider = .ok input ∧
          SortKey.resolveAll (Scope.single t.schema) keys = .ok xs ∧
          (∀ k ∈ xs, k.InFamily input.rows) ∧ OperatorPlan.ofPlan v.root = .ok opv ∧
          opv.run s.store.provider = .ok b := by
  intro n stored rows s keys predicate scanned ordered t u b
  have hscan : (Table.scan "t" stored).Gives ⟨0⟩ t ⟨1⟩ := rfl
  have hbuilt : Built ⟨1⟩ t := .scan hscan
  have hu : (t.orderBy keys >>= fun ordered => ordered.filter predicate).Gives ⟨1⟩ u ⟨3⟩ := rfl
  have hop : OperatorPlan.ofPlan t.root = .ok (.node (.scan "t") stored []) := rfl
  have hinput : (OperatorPlan.node (.scan "t") stored []).run s.store.provider = .ok rows.1 := rfl
  obtain ⟨v, hv, -, -, xs, hxs, hruns⟩ := hbuilt.filter_orderBy hu
  have hresolve : SortKey.resolveAll (Scope.single t.schema) keys =
    .ok [⟨.column 1 .int64, true, true⟩] := rfl
  obtain rfl := Except.ok.inj (hxs.symm.trans hresolve)
  have hfamilies : ∀ k ∈ ([⟨.column 1 .int64, true, true⟩] : List (SortKey RowExpr)),
      k.InFamily rows.1.rows :=
    List.forall_mem_singleton.mpr ⟨.integer, List.forall_mem_cons.mpr ⟨.inl rfl,
      List.forall_mem_cons.mpr ⟨.inr rfl, List.forall_mem_cons.mpr
        ⟨.inr rfl, List.forall_mem_singleton.mpr (.inr rfl)⟩⟩⟩⟩
  obtain ⟨opu, opv, hopu, hopv, hrun⟩ := hruns _ _ _ hop hinput hfamilies
  have hb : opu.run s.store.provider = .ok b := by
    cases hopu
    cbv
  exact ⟨hbuilt, hu, v, hv, _, _, _, opv, hop, hinput, hxs, hfamilies, hopv, ((hrun b).mp hb).1⟩

end Table

end TableQuery
