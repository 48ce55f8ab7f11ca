import TableQuery.Proofs.Operator.Layout
import TableQuery.Proofs.Session.Layout
import TableQuery.Proofs.Session.Limit

/-! # Projections without windows

A projection whose expressions have no windows is lowered to a single operator, which computes them
on each row. Its rows are therefore the values of the resolved expressions on the rows of its input
(`Session.batchOf_project`). The rows of a table are laid out by its schema, if its plan is in step
with the store (`Table.Built.laidOut_of_batchOf`). -/

namespace TableQuery

/-! ### Expressions without windows -/

namespace Expr

theorem hasWindowAny_eq_false_iff {es : List Expr} :
    hasWindowAny es = false ↔ ∀ e ∈ es, e.hasWindow = false := by
  induction es with
  | nil => simp [hasWindowAny]
  | cons e r ih => rw [hasWindowAny, Bool.or_eq_false_iff, ih, List.forall_mem_cons]

mutual

/-- An expression without windows has none to take out. -/
theorem withColumns_of_no_window (n : Nat) : ∀ {e : Expr}, e.hasWindow = false →
    e.windows = [] ∧ e.withColumns n = e
  | .column _ _, _ => ⟨rfl, rfl⟩
  | .literal _, _ => ⟨rfl, rfl⟩
  | .arith op a b, h => by
    obtain ⟨ha, hb⟩ := Bool.or_eq_false_iff.mp h
    obtain ⟨hwa, hca⟩ := withColumns_of_no_window n ha
    obtain ⟨hwb, hcb⟩ := withColumns_of_no_window n hb
    rw [windows, withColumns, hwa, hwb, hca]
    exact ⟨rfl, congrArg (arith op a) hcb⟩
  | .compare op a b, h => by
    obtain ⟨ha, hb⟩ := Bool.or_eq_false_iff.mp h
    obtain ⟨hwa, hca⟩ := withColumns_of_no_window n ha
    obtain ⟨hwb, hcb⟩ := withColumns_of_no_window n hb
    rw [windows, withColumns, hwa, hwb, hca]
    exact ⟨rfl, congrArg (compare op a) hcb⟩
  | .conj op es, h => by
    obtain ⟨hw, hc⟩ := withColumnsAll_of_no_window n h
    exact ⟨hw, congrArg (conj op) hc⟩
  | .unary op e, h => by
    obtain ⟨hw, hc⟩ := withColumns_of_no_window n (e := e) h
    exact ⟨hw, congrArg (unary op) hc⟩
  | .aggregate _ none, _ => ⟨rfl, rfl⟩
  | .aggregate f (some e), h => by
    obtain ⟨hw, hc⟩ := withColumns_of_no_window n (e := e) h
    exact ⟨hw, congrArg (aggregate f ∘ some) hc⟩
  | .aliased name e, h => by
    obtain ⟨hw, hc⟩ := withColumns_of_no_window n (e := e) h
    exact ⟨hw, congrArg (aliased name) hc⟩

theorem withColumnsAll_of_no_window (n : Nat) : ∀ {es : List Expr}, hasWindowAny es = false →
    windowsOfAll es = [] ∧ withColumnsAll n es = es
  | [], _ => ⟨rfl, rfl⟩
  | e :: r, h => by
    obtain ⟨he, hr⟩ := Bool.or_eq_false_iff.mp h
    obtain ⟨hwe, hce⟩ := withColumns_of_no_window n he
    obtain ⟨hwr, hcr⟩ := withColumnsAll_of_no_window n hr
    rw [windowsOfAll, withColumnsAll, hwe, hwr, hce]
    exact ⟨rfl, congrArg (e :: ·) hcr⟩

end

end Expr

/-- A projection without windows is lowered to one operator. -/
theorem OperatorPlan.projectNode_of_no_window {child : OperatorPlan} {exprs : List Expr}
    {xs : List RowExpr} (hnone : Expr.hasWindowAny exprs = false)
    (hxs : Expr.resolveAll (Scope.single child.schema) exprs = .ok xs) (schema : Schema) :
    projectNode child exprs schema = .ofResult (.ok (.node (.project xs) schema [child])) := by
  funext n
  obtain ⟨hwindows, hcolumns⟩ := Expr.withColumnsAll_of_no_window n hnone
  rw [projectNode_eq, hwindows, hcolumns]
  change Expr.resolveAll (Scope.single child.schema) exprs >>= _ = _
  rw [hxs]
  rfl

namespace Session

variable {s : Session} {c : Plan}

/-- **The rows of a projection without windows**, from those of a checked plan. -/
theorem batchOf_project {exprs : List Expr} {xs : List RowExpr} (hc : c.Checked)
    (hnone : Expr.hasWindowAny exprs = false)
    (hxs : Expr.resolveAll (Scope.single c.schema) exprs = .ok xs) (ref : TableRef)
    (schema : Schema) : s.batchOf (.node (.project exprs) ref schema [c]) =
      s.batchOf c >>= fun b => b.project xs schema.types := by
  have hnode : ∀ child : OperatorPlan, child.schema = c.schema →
      OperatorPlan.unaryNode (.project exprs) schema child =
        .ofResult (.ok (.node (.project xs) schema [child])) := fun child hchild =>
    OperatorPlan.projectNode_of_no_window hnone (hchild ▸ hxs) schema
  exact batchOf_unary_of_checked rfl hc hnode ref

end Session

/-- The rows of a table are laid out by its schema. -/
theorem Table.Built.laidOut_of_batchOf {next : TableRef} {t : Table} (h : Built next t)
    {s : Session} (hs : s.store.Reachable) (hstep : t.root.InStep s.store) {b : Batch}
    (hb : s.batchOf t.root = .ok b) : b.LaidOut t.schema := by
  rw [Session.batchOf_eq s .table] at hb
  obtain ⟨c, hc, hrun⟩ := Result.bind_eq_ok_iff.mp hb
  obtain ⟨-, -, hplan, -⟩ := Session.compileRoot_eq_ok_iff.mp hc
  exact (OperatorPlan.executes_of_ofPlan h.sound.checked hplan hrun).laidOut
    (h.leavesGive_laidOut hs hstep)

end TableQuery
