import TableQuery.Proofs.Operator.Ordering
import TableQuery.Proofs.Store.Reading
import TableQuery.Sql.Render

/-! # The orderings that SQL repeats

A filter or projection in SQL repeats the ordering that `Plan.ordering?` finds for its input. This
is the ordering of the plan's own rows: it is found exactly for stacks that keep the order of a sort
(`ordering?_eq_some_iff`), its keys have types over the columns of the plan, and the rows that
running the plan gives are sorted by them (`Built.ordering_sound`). The rows that a window is put
behind have to have a value for every column. A scan of a table that has been replaced by a narrower
one gives rows without, and then the rows need not be sorted (`Built.not_ordering_sound`). -/

namespace TableQuery

theorem Expr.passesOn_iff {exprs : List Expr} {name : String} :
    passesOn exprs name = true ↔ Passes exprs name := by
  rw [passesOn, List.any_eq_true]
  refine exists_congr fun e => and_congr_right fun _ => ?_
  cases e.unaliased <;> simp

namespace Plan

variable {keys : List (SortKey Expr)} {p : Plan}

theorem KeepsOrder.ordering?_eq (h : p.KeepsOrder keys) : p.ordering? = some keys := by
  induction h with
  | order => rfl
  | filter _ ih | limit _ ih => exact ih
  | project _ hpasses ih =>
    refine Option.bind_eq_some_iff.mpr ⟨keys, ih, if_pos ?_⟩
    simpa only [List.all_eq_true, Expr.passesOn_iff] using hpasses

/-- **An ordering is found** exactly for the stacks that keep the order of its keys. -/
theorem ordering?_eq_some_iff (hp : p.Checked) : p.ordering? = some keys ↔ p.KeepsOrder keys := by
  refine ⟨fun h => ?_, KeepsOrder.ordering?_eq⟩
  induction hp with
  | order =>
    cases h
    exact .order
  | filter _ _ ih => exact .filter (ih h)
  | limit _ ih => exact .limit (ih h)
  | project _ _ ih =>
    obtain ⟨found, hfound, h⟩ := Option.bind_eq_some_iff.mp h
    split at h
    · rename_i hall
      cases h
      simp only [List.all_eq_true, Expr.passesOn_iff] at hall
      exact .project (ih hfound) hall
    · cases h
  | _ => cases h

end Plan

namespace Table

/-- **The ordering that is found for a plan is that of its rows**, for every table that calls can
build. It is found exactly for a sort under filters, limits and projections that pass on the columns
that its keys read. The keys then have types over the columns of the plan, and they are resolved
over these. The rows that running the plan gives are sorted by the resolved keys, wherever the plan
reads its rows from, if under each key the values of the rows that are sorted are nulls and values
of one family, and if the rows that windows are put behind have a value for every column. -/
theorem Built.ordering_sound {next : TableRef} {t : Table} (h : Built next t)
    (keys : List (SortKey Expr)) :
    (t.root.ordering? = some keys ↔ t.root.KeepsOrder keys) ∧
    (t.root.ordering? = some keys → keys.forM (checkSortKey t.schema) = .ok () ∧
      ∃ xs, SortKey.resolveAll (Scope.single t.schema) keys = .ok xs ∧
        ∀ provider op b, OperatorPlan.ofPlan t.root = .ok op → op.run provider = .ok b →
          op.SortsFamilies provider → t.root.WindowsFilled provider → Row.SortedBy xs b.rows) := by
  have hchecked := h.sound.checked
  refine ⟨Plan.ordering?_eq_some_iff hchecked, fun hordering => ?_⟩
  have hkeeps := (Plan.ordering?_eq_some_iff hchecked).mp hordering
  have hcheck := hkeeps.checkSortKey hchecked
  refine ⟨hcheck, ?_⟩
  obtain ⟨xs, hxs⟩ := OperatorPlan.resolveAll_of_checkSortKey hcheck
  refine ⟨xs, hxs, fun provider op b hop hb hfamilies hwindows => ?_⟩
  have hexecutes := OperatorPlan.executes_of_ofPlan hchecked hop hb
  obtain ⟨ys, hys, hsorted⟩ := hkeeps.sortedBy hexecutes h.holds_laidOut hwindows hfamilies
  obtain rfl : ys = xs := Except.ok.inj (hys.symm.trans hxs)
  exact hsorted

/-- Places beside the column by which the rows were ordered. -/
theorem Built.ordering_sound_places :
    let n : Int → Scalar := fun v => .int .int64 (Bounded.clamp _ _ (by decide) v)
    let stored : Schema := ⟨[("a", .int64), ("b", .int64)], by decide⟩
    let rows : { b : Batch // b.Rectangular } :=
      ⟨⟨stored.types, [[n 1, n 7], [n 2, .null], [n 3, n 5]]⟩,
        List.forall_mem_cons.mpr ⟨rfl, List.forall_mem_cons.mpr
          ⟨rfl, List.forall_mem_singleton.mpr rfl⟩⟩⟩
    let s := (Session.start ⟨true, .ansi⟩).runCalls [.create "t" stored (some rows) .error]
    let keys : List (SortKey Expr) := [⟨.col "b", false, false⟩]
    let place : Expr := .aliased "n" (.window .rowNumber none [] [⟨.col "a", true, false⟩])
    let schema : Schema := ⟨[("b", .int64), ("n", DataType.int64.nonNull)], by decide⟩
    let scanned : Plan := .node (.scan "t") ⟨0⟩ stored []
    let ordered : Plan := .node (.order keys) ⟨1⟩ stored [scanned]
    let t : Table := ⟨.node (.project [.col "b", place]) ⟨2⟩ schema [ordered], .standard⟩
    let b : Batch := ⟨schema.types, [[n 5, n 0], [n 7, n 2], [.null, n 1]]⟩
    Built ⟨3⟩ t ∧ t.root.ordering? = some keys ∧
      ∃ op, OperatorPlan.ofPlan t.root = .ok op ∧ op.run s.store.provider = .ok b ∧
        op.SortsFamilies s.store.provider ∧ t.root.WindowsFilled s.store.provider ∧
        Row.SortedBy [⟨.column 0 .int64, false, false⟩] b.rows := by
  intro n stored rows s keys place schema scanned ordered t b
  have hscan : (Table.scan "t" stored).Gives ⟨0⟩ ⟨scanned, .standard⟩ ⟨1⟩ := rfl
  have horder : (Table.orderBy ⟨scanned, .standard⟩ keys).Gives ⟨1⟩ ⟨ordered, .standard⟩ ⟨2⟩ := rfl
  have hselect : (Table.select ⟨ordered, .standard⟩ [.col "b", place]).Gives ⟨2⟩ t ⟨3⟩ := rfl
  have hbuilt : Built ⟨3⟩ t := .select (.orderBy (.scan hscan) horder) hselect
  have hordering : t.root.ordering? = some keys := rfl
  have hprovider : s.store.provider.scan "t" = .ok rows.1 := rfl
  obtain ⟨op, hop, hb, hsort⟩ : ∃ op, OperatorPlan.ofPlan t.root = .ok op ∧
      op.run s.store.provider = .ok b ∧
      op.sort? = some ([⟨.column 1 .int64, false, false⟩], .node (.scan "t") stored []) :=
    ⟨_, rfl, by cbv, rfl⟩
  have hfamilies : op.SortsFamilies s.store.provider :=
    OperatorPlan.sortsFamilies_of_sort? hsort hprovider (List.forall_mem_singleton.mpr
      ⟨.integer, List.forall_mem_cons.mpr ⟨.inr rfl, List.forall_mem_cons.mpr
        ⟨.inl rfl, List.forall_mem_singleton.mpr (.inr rfl)⟩⟩⟩)
  have hwindows : t.root.WindowsFilled s.store.provider := by
    refine ⟨fun _ input hinput => ?_, trivial⟩
    obtain rfl : rows.1 = input := Except.ok.inj (hprovider.symm.trans hinput)
    exact fun r hr => (rows.2 r hr).ge
  obtain ⟨-, xs, hxs, hsorted⟩ := (hbuilt.ordering_sound keys).2 hordering
  cases hxs
  exact ⟨hbuilt, hordering, op, hop, hb, hfamilies, hwindows,
    hsorted _ op b hop hb hfamilies hwindows⟩

/-- **The ordering that is found is not always that of the rows**: behind the rows of a table that
has been replaced by a narrower one, a window stands where the key's column is read. -/
theorem Built.not_ordering_sound :
    let n : Int → Scalar := fun v => .int .int64 (Bounded.clamp _ _ (by decide) v)
    let wide : Schema := ⟨[("a", .int64), ("b", .int64)], by decide⟩
    let narrow : Schema := ⟨[("a", .int64)], by decide⟩
    let wideRows : { b : Batch // b.Rectangular } :=
      ⟨⟨wide.types, [[n 1, n 1], [n 2, n 2]]⟩,
        List.forall_mem_cons.mpr ⟨rfl, List.forall_mem_singleton.mpr rfl⟩⟩
    let narrowRows : { b : Batch // b.Rectangular } :=
      ⟨⟨narrow.types, [[n 1], [n 2]]⟩,
        List.forall_mem_cons.mpr ⟨rfl, List.forall_mem_singleton.mpr rfl⟩⟩
    let s := (Session.start ⟨true, .ansi⟩).runCalls
      [.create "t" wide (some wideRows) .error, .create "t" narrow (some narrowRows) .replace]
    let keys : List (SortKey Expr) := [⟨.col "b", false, false⟩]
    let place : Expr := .aliased "n" (.window .rowNumber none [] [⟨.col "a", true, false⟩])
    let schema : Schema := ⟨[("b", .int64), ("n", DataType.int64.nonNull)], by decide⟩
    let scanned : Plan := .node (.scan "t") ⟨0⟩ wide []
    let ordered : Plan := .node (.order keys) ⟨1⟩ wide [scanned]
    let t : Table := ⟨.node (.project [.col "b", place]) ⟨2⟩ schema [ordered], .standard⟩
    let b : Batch := ⟨schema.types, [[n 1, .null], [n 0, .null]]⟩
    Built ⟨3⟩ t ∧ s.store.Reachable ∧ t.root.ordering? = some keys ∧
      ∃ op xs, OperatorPlan.ofPlan t.root = .ok op ∧ op.run s.store.provider = .ok b ∧
        op.SortsFamilies s.store.provider ∧
        SortKey.resolveAll (Scope.single t.schema) keys = .ok xs ∧ ¬ Row.SortedBy xs b.rows := by
  intro n wide narrow wideRows narrowRows s keys place schema scanned ordered t b
  have hscan : (Table.scan "t" wide).Gives ⟨0⟩ ⟨scanned, .standard⟩ ⟨1⟩ := rfl
  have horder : (Table.orderBy ⟨scanned, .standard⟩ keys).Gives ⟨1⟩ ⟨ordered, .standard⟩ ⟨2⟩ := rfl
  have hselect : (Table.select ⟨ordered, .standard⟩ [.col "b", place]).Gives ⟨2⟩ t ⟨3⟩ := rfl
  have hprovider : s.store.provider.scan "t" = .ok narrowRows.1 := rfl
  obtain ⟨op, hop, hb, hsort⟩ : ∃ op, OperatorPlan.ofPlan t.root = .ok op ∧
      op.run s.store.provider = .ok b ∧
      op.sort? = some ([⟨.column 1 .int64, false, false⟩], .node (.scan "t") wide []) :=
    ⟨_, rfl, by cbv, rfl⟩
  refine ⟨.select (.orderBy (.scan hscan) horder) hselect, Session.runCalls_reachable .empty _, rfl,
    op, _, hop, hb, ?_, rfl, ?_⟩
  · exact OperatorPlan.sortsFamilies_of_sort? hsort hprovider (List.forall_mem_singleton.mpr
      ⟨.integer, List.forall_mem_cons.mpr ⟨.inl rfl, List.forall_mem_singleton.mpr (.inl rfl)⟩⟩)
  · intro hsorted
    obtain ⟨hfirst, -⟩ := List.pairwise_cons.mp hsorted
    obtain ⟨vs, us, hvs, hus, horder⟩ := hfirst _ List.mem_cons_self
    cases hvs
    cases hus
    exact horder rfl

end Table

end TableQuery
