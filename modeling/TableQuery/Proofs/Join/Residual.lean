import Mathlib
import TableQuery.Proofs.Expr.Columns
import TableQuery.Proofs.Join.Outputs
import TableQuery.Proofs.Relation.Built
import TableQuery.Sql.Render

/-! # The columns of residuals

What is left of a join predicate is read three times. The planner decides on a side for every column
and puts the reference of that side into it; lowering looks the column up among those of both sides;
in SQL it is written under the alias of one side. The last two find the side that the first one
decided on (`agreeOn_of_side`), since the two sides of a join have different references.

The main statement, `Table.Built.residual_agreeOn`, says so of every join in a table that can be
built, joins of a table with itself among them. -/

namespace TableQuery

namespace Sql

/-- Tables with different references have different aliases. -/
theorem tableAlias_injective : Function.Injective tableAlias := by
  rintro ⟨m⟩ ⟨n⟩ h
  have hdigits : toString m = toString n := String.append_right_inj _ |>.mp h
  exact congrArg TableRef.mk (Nat.repr_injective hdigits)

end Sql

namespace JoinInputs

variable (inputs : JoinInputs)

/-- The reference of a side. -/
def refOf : Side → TableRef
  | .left => inputs.leftRef
  | .right => inputs.rightRef

/-- **All readers of a column agree on a side of the join**: the column carries the reference of
that side, lowering reads it where it stands among the columns of that side, and in SQL it has the
alias of that side. -/
structure AgreeOn (s : Side) (c : ColumnRef) : Prop where
  table_eq : c.table = some (inputs.refOf s)
  resolve_eq : ∃ i t, (inputs.scopeOf s).schema.fields[i]? = some (c.name, t) ∧
    (Expr.ofColumn c).resolve
      (Scope.join inputs.leftRef inputs.left inputs.rightRef inputs.right) =
        .ok (.column ((inputs.scopeOf s).offset + i) t)
  expr_eq : ∀ d : Sql.Dialect,
    d.expr (.join inputs.leftRef inputs.left inputs.rightRef inputs.right) (.ofColumn c) =
      .ok (d.qualifiedName (inputs.refOf s) c.name)

variable {inputs}

theorem scopeOf_table (s : Side) : (inputs.scopeOf s).table = some (inputs.refOf s) := by
  cases s <;> rfl

theorem sideOf_refOf (s : Side) (name : String) :
    Sql.NameScope.sideOf inputs.leftRef inputs.left inputs.rightRef inputs.right
      ⟨some (inputs.refOf s), name⟩ = .ok (inputs.refOf s) := by
  unfold Sql.NameScope.sideOf
  cases s with
  | left => exact if_pos rfl
  | right =>
    by_cases h : inputs.rightRef = inputs.leftRef <;> simp [refOf, h]

/-- **The side that the planner decides on** is the one that everyone else finds. -/
theorem agreeOn_of_side (hrefs : inputs.leftRef ≠ inputs.rightRef) {c : ColumnRef} {s : Side}
    (h : inputs.side c = .ok s) : inputs.AgreeOn s ⟨some (inputs.refOf s), c.name⟩ := by
  have hcontains := contains_of_side h
  obtain ⟨i, t, hi⟩ := Schema.contains_iff.mp hcontains
  refine ⟨rfl, ⟨i, t, hi, ?_⟩, fun d => ?_⟩
  · have hplace : Scope.placement inputs.scopes ⟨some (inputs.refOf s), c.name⟩ =
        .ok ((inputs.scopeOf s).offset + i, t) := by
      rw [← scopeOf_table, placement_scopes hrefs hcontains]
      exact Scope.place_eq_ok_iff.mpr ⟨i, rfl, hi⟩
    change (Expr.ofColumn ⟨some (inputs.refOf s), c.name⟩).resolve inputs.scopes = _
    rw [Expr.resolve_eq_resolveWith, Expr.ofColumn, Expr.resolveWith, hplace]
    rfl
  · rw [Expr.ofColumn, Sql.Dialect.expr, Sql.Dialect.column, sideOf_refOf]
    rfl

/-! ### From the predicate to the residual -/

/-- What the conjuncts leave over reads columns of the conjuncts only. -/
theorem columns_of_splitConjuncts {e d : Expr} {conditions : List JoinCondition}
    {rest : List Expr} (h : inputs.splitConjuncts e.conjuncts = .ok (conditions, rest))
    (hd : Expr.conjunction? rest = some d) : ∀ c ∈ d.columns, c ∈ e.columns := by
  have hP : Expr.Conjunctive fun d => ∀ c ∈ d.columns, c ∈ e.columns := by
    intro es
    change (∀ c ∈ Expr.columnsOfAll es, c ∈ e.columns) ↔ _
    induction es with
    | nil => simp [Expr.columnsOfAll]
    | cons d r ih => rw [Expr.columnsOfAll, List.forall_mem_append, ih, List.forall_mem_cons]
  have hconjuncts := (Expr.forall_conjuncts_iff hP e).mpr fun _ hc => hc
  have hrest := (forall_splitConjuncts_iff (C := fun _ => True)
    (fun d hd _ _ _ => iff_true_intro (hconjuncts d hd)) h).mp hconjuncts
  exact (Expr.forall_conjunction?_iff hP hd).mpr hrest.2

/-- A qualified column comes from a column that the planner decides on. -/
theorem exists_side_of_qualifyResidual {e q : Expr} (h : inputs.qualifyResidual e = .ok q)
    {c : ColumnRef} (hc : c ∈ q.columns) : ∃ c₀ ∈ e.columns, ∃ s,
      inputs.side c₀ = .ok s ∧ c = ⟨some (inputs.refOf s), c₀.name⟩ := by
  obtain ⟨q', hq, h⟩ := Result.bind_eq_ok_iff.mp h
  obtain ⟨sided, -, h⟩ := Result.bind_eq_ok_iff.mp h
  obtain ⟨_, -, h⟩ := Result.bind_eq_ok_iff.mp h
  obtain ⟨t, -, h⟩ := Result.bind_eq_ok_iff.mp h
  split at h
  · cases h
  · split at h <;> cases h
    obtain ⟨c₀, hc₀, p, hp, hcp⟩ := (Expr.replaces_of_mapColumnsM hq).exists_of_mem hc
    obtain ⟨s, hs, rfl⟩ := qualify_eq_ok_iff.mp hp
    rw [scopeOf_table] at hcp
    exact ⟨c₀, hc₀, s, hs, List.mem_singleton.mp hcp⟩

/-- **The columns of a residual** are columns of the predicate, with the references of the sides
that the planner decides on for them. -/
theorem exists_side_of_splitPredicate {predicate : JoinPredicate} {q : Expr}
    {conditions : List JoinCondition}
    (h : inputs.splitPredicate predicate = .ok (conditions, some q)) :
    ∃ e, predicate = .expression e ∧ ∀ c ∈ q.columns, ∃ c₀ ∈ e.columns, ∃ s,
      inputs.side c₀ = .ok s ∧ c = ⟨some (inputs.refOf s), c₀.name⟩ := by
  cases predicate with
  | columns pairs =>
    obtain ⟨_, -, h⟩ := Result.bind_eq_ok_iff.mp h
    cases h
  | cross => cases h
  | expression e =>
    refine ⟨e, rfl, fun c hc => ?_⟩
    obtain ⟨⟨_, rest⟩, hsplit, h⟩ := Result.bind_eq_ok_iff.mp h
    obtain ⟨_, hresidual, h⟩ := Result.bind_eq_ok_iff.mp h
    cases h
    cases hd : Expr.conjunction? rest with
    | none =>
      rw [hd] at hresidual
      cases hresidual
    | some d =>
      rw [hd, Option.mapM_some] at hresidual
      obtain ⟨_, hq, h⟩ := Result.map_eq_ok_iff.mp hresidual
      cases h
      obtain ⟨c₀, hc₀, hs⟩ := exists_side_of_qualifyResidual hq hc
      exact ⟨c₀, columns_of_splitConjuncts hsplit hd c₀ hc₀, hs⟩

end JoinInputs

/-! ### Joins in tables -/

namespace Table

/-- **Every join in a table that can be built** has two sides with different references, hence with
different aliases, and was planned from a predicate; all readers of a column of its residual agree
on the side that the planner decided on for a column of the predicate. -/
theorem Built.residual_agreeOn {next : TableRef} {t : Table} (h : Built next t) {q : Plan}
    (hq : q ∈ t.root.nodes) {j : Join} (hj : q.op = .join j) :
    ∃ l r suffixes selfRef predicate, q.children = [l, r] ∧ l.ref ≠ r.ref ∧
      Sql.tableAlias l.ref ≠ Sql.tableAlias r.ref ∧
      let inputs : JoinInputs := ⟨l.ref, l.schema, r.ref, r.schema, suffixes, selfRef⟩
      inputs.plan predicate j.kind = .ok (j, q.schema) ∧
      ∀ residual, j.residual = some residual → ∃ e, predicate = .expression e ∧
        ∀ c ∈ residual.columns, ∃ s, inputs.AgreeOn s c ∧
          ∃ c₀ ∈ e.columns, inputs.side c₀ = .ok s ∧ c₀.name = c.name := by
  have hchecked := h.sound.checked.of_mem_nodes q hq
  cases hchecked with
  | join _ _ hne hplan =>
    rename_i l r suffixes selfRef predicate kind _ _
    cases hj
    obtain ⟨rfl, hsplit, -⟩ := JoinInputs.plan_eq_ok_iff.mp hplan
    refine ⟨l, r, suffixes, selfRef, predicate, rfl, hne, fun ha =>
      hne (Sql.tableAlias_injective ha), hplan, fun residual hresidual => ?_⟩
    rw [hresidual] at hsplit
    obtain ⟨e, he, hcolumns⟩ := JoinInputs.exists_side_of_splitPredicate hsplit
    refine ⟨e, he, fun c hc => ?_⟩
    obtain ⟨c₀, hc₀, s, hs, rfl⟩ := hcolumns c hc
    exact ⟨s, JoinInputs.agreeOn_of_side hne hs, c₀, hc₀, hs, rfl⟩
  | _ => cases hj

/-- A table joined with a view of itself: the columns of the residual have one name, and the first
of them is that of the view. -/
theorem Built.residual_agreeOn_view :
    let s : Schema := ⟨[("id", .int64), ("a", .int64)], by decide⟩
    let out : Schema := ⟨[("id", .int64), ("a", .int64), ("a_v", .int64)], by decide⟩
    let table : Plan := .node (.scan "p") ⟨0⟩ s []
    let view : Plan := .node (.project [.col "id", .col "a"]) ⟨1⟩ s [table]
    let residual : Expr := .compare .lt (.column (some ⟨1⟩) "a") (.column (some ⟨0⟩) "a")
    let join : Join := ⟨.left, [⟨"id", "id"⟩], some residual,
      [⟨"id", .left "id"⟩, ⟨"a", .left "a"⟩, ⟨"a_v", .right "a"⟩]⟩
    let t : Table := ⟨.node (.join join) ⟨2⟩ out [table, view], .standard⟩
    Built ⟨3⟩ t ∧ t.root ∈ t.root.nodes ∧ t.root.op = .join join ∧
      residual.columns = [⟨some ⟨1⟩, "a"⟩, ⟨some ⟨0⟩, "a"⟩] ∧
      (Expr.column (some ⟨1⟩) "a").resolve (Scope.join ⟨0⟩ s ⟨1⟩ s) = .ok (.column 3 .int64) ∧
      Sql.Dialect.ansi.expr (.join ⟨0⟩ s ⟨1⟩ s) residual = .ok "(t1.a < t0.a)" ∧
      ∃ suffixes selfRef, ∀ c ∈ residual.columns, ∃ side,
        (⟨⟨0⟩, s, ⟨1⟩, s, suffixes, selfRef⟩ : JoinInputs).AgreeOn side c := by
  intro s out table view residual join t
  have htable : (Table.scan "p" s).Gives ⟨0⟩ ⟨table, .standard⟩ ⟨1⟩ := rfl
  have hview : (Table.view ⟨table, .standard⟩).Gives ⟨1⟩ ⟨view, .standard⟩ ⟨2⟩ := rfl
  have hjoin : (Table.joinWith ⟨table, .standard⟩ ⟨view, .standard⟩
    (.expression (.conj .and [.compare .eq (.column (some ⟨1⟩) "id") (.column (some ⟨0⟩) "id"),
      residual])) .left (.ofRight "_v")).Gives ⟨2⟩ t ⟨3⟩ := rfl
  have hbuilt : Built ⟨3⟩ t :=
    .joinWith (.later (.scan htable) (by decide)) (.view (.scan htable) hview) hjoin
  have hroot : t.root ∈ t.root.nodes := List.mem_cons_self
  obtain ⟨l, r, suffixes, selfRef, predicate, hchildren, -, -, -, hcolumns⟩ :=
    hbuilt.residual_agreeOn hroot rfl
  cases hchildren
  obtain ⟨e, -, hcolumns⟩ := hcolumns residual rfl
  exact ⟨hbuilt, hroot, rfl, rfl, rfl, by cbv, suffixes, selfRef, fun c hc =>
    (hcolumns c hc).imp fun _ h => h.1⟩

end Table

end TableQuery
