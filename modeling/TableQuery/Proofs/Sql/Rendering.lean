import TableQuery.Proofs.Relation.Leaves
import TableQuery.Proofs.Session.Errors

/-! # Plans that are rendered

Expressions over a single input are always rendered, and so are sort keys, items and groups made of
them. What may fail is a leaf, the residual of a join, or a node with a wrong number of inputs. A
node over one plan therefore fails alike with the plan (`Dialect.render_unary`): it is rendered if
the plan is, in whatever form, and otherwise has its errors. -/

namespace TableQuery

/-- **Two computations fail alike**: with the same errors, so one succeeds if the other does. -/
def Result.FailsAlike {α β : Type} (x : Result α) (y : Result β) : Prop :=
  ∀ e, x = .error e ↔ y = .error e

namespace Result.FailsAlike

variable {α β γ : Type} {x : Result α} {y : Result β}

theorem refl (x : Result α) : x.FailsAlike x := fun _ => Iff.rfl

theorem symm (h : x.FailsAlike y) : y.FailsAlike x := fun e => (h e).symm

theorem of_ok {a : α} {b : β} (hx : x = .ok a) (hy : y = .ok b) : x.FailsAlike y := by
  subst hx hy
  exact fun e => ⟨fun h => (nomatch h), fun h => (nomatch h)⟩

theorem of_error (e : Error) : FailsAlike (.error e : Result α) (.error e : Result β) :=
  fun _ => ⟨fun h => congrArg _ (Except.error.inj h), fun h => congrArg _ (Except.error.inj h)⟩

/-- A last step that never fails. -/
theorem bind_left {f : α → Result γ} (h : x.FailsAlike y) (hf : ∀ a, ∃ c, f a = .ok c) :
    (x >>= f).FailsAlike y := by
  have hx : (x >>= f).FailsAlike x := by
    cases x with
    | error e => exact of_error e
    | ok a =>
      obtain ⟨c, hc⟩ := hf a
      exact of_ok (by rw [ok_bind, hc]) rfl
  exact fun e => (hx e).trans (h e)

/-- The same first step, and alike ones behind it. -/
theorem bind_congr {f : α → Result β} {g : α → Result γ} (h : ∀ a, (f a).FailsAlike (g a)) :
    (x >>= f).FailsAlike (x >>= g) := by
  cases x with
  | error e => exact of_error e
  | ok a => exact h a

theorem map_left {f : α → γ} (h : x.FailsAlike y) : FailsAlike (x.map f) y := by
  have hbind : x.map f = x >>= fun a => .ok (f a) := by cases x <;> rfl
  rw [hbind]
  exact h.bind_left fun a => ⟨f a, rfl⟩

/-- What comes after a computation of which only the success counts. -/
theorem bind_eq (h : x.FailsAlike y) (k : Result γ) : (x >>= fun _ => k) = (y >>= fun _ => k) := by
  cases x with
  | error e =>
    rw [(h e).mp rfl]
    rfl
  | ok a =>
    cases y with
    | error e => cases (h e).mpr rfl
    | ok b => rfl

end Result.FailsAlike

namespace Sql

/-! ### Expressions -/

/-- **A scope that finds every column.** -/
def NameScope.FindsAll (d : Dialect) (scope : NameScope) : Prop :=
  ∀ c, ∃ x, d.column scope c = .ok x

namespace Dialect

open Result

variable (d : Dialect)

theorem findsAll_single : NameScope.FindsAll d .single := fun _ => ⟨_, rfl⟩

theorem findsAll_qualified (ref : TableRef) : NameScope.FindsAll d (.qualified ref) :=
  fun _ => ⟨_, rfl⟩

mutual

/-- **Expressions are rendered** where every column is found. -/
theorem exists_expr {scope : NameScope} (h : scope.FindsAll d) :
    ∀ e : Expr, ∃ x, d.expr scope e = .ok x
  | .column table name => h ⟨table, name⟩
  | .literal v => ⟨_, rfl⟩
  | .arith op a b | .compare op a b => by
    obtain ⟨x, hx⟩ := exists_expr h a
    obtain ⟨y, hy⟩ := exists_expr h b
    rw [expr, hx, ok_bind, hy]
    exact ⟨_, rfl⟩
  | .conj op es => by
    obtain ⟨xs, hxs⟩ := exists_exprs h es
    rw [expr, hxs]
    exact ⟨_, rfl⟩
  | .unary op e => by
    obtain ⟨x, hx⟩ := exists_expr h e
    rw [expr, hx]
    exact ⟨_, rfl⟩
  | .aliased n e => by
    rw [expr]
    exact exists_expr h e
  | .aggregate f input => by
    obtain ⟨x, hx⟩ := exists_optionalExpr h input
    rw [expr, hx]
    exact ⟨_, rfl⟩
  | .window f input ps ks => by
    obtain ⟨partitions, hps⟩ := exists_exprs h ps
    obtain ⟨keys, hks⟩ := exists_sortKeys h ks
    obtain ⟨x, hx⟩ := exists_optionalExpr h input
    rw [expr, hps, ok_bind, hks, ok_bind]
    cases f with
    | rowNumber => exact ⟨_, rfl⟩
    | aggregate f =>
      dsimp only
      rw [hx]
      exact ⟨_, rfl⟩

theorem exists_optionalExpr {scope : NameScope} (h : scope.FindsAll d) : ∀ e : Option Expr,
    ∃ x, d.optionalExpr scope e = .ok x
  | none => ⟨none, rfl⟩
  | some e => by
    obtain ⟨x, hx⟩ := exists_expr h e
    rw [optionalExpr, hx]
    exact ⟨_, rfl⟩

theorem exists_exprs {scope : NameScope} (h : scope.FindsAll d) : ∀ es : List Expr,
    ∃ xs, d.exprs scope es = .ok xs
  | [] => ⟨[], rfl⟩
  | e :: r => by
    obtain ⟨x, hx⟩ := exists_expr h e
    obtain ⟨xs, hxs⟩ := exists_exprs h r
    rw [exprs, hx, ok_bind, hxs]
    exact ⟨_, rfl⟩

theorem exists_sortKeys {scope : NameScope} (h : scope.FindsAll d) : ∀ ks : List (SortKey Expr),
    ∃ xs, d.sortKeys scope ks = .ok xs
  | [] => ⟨[], rfl⟩
  | ⟨e, _, _⟩ :: r => by
    obtain ⟨x, hx⟩ := exists_expr h e
    obtain ⟨xs, hxs⟩ := exists_sortKeys h r
    rw [sortKeys, hx, ok_bind, hxs]
    exact ⟨_, rfl⟩

end

theorem exists_selectItems (es : List Expr) : ∃ x, d.selectItems es = .ok x := by
  have hitem : ∀ e ∈ es, ∃ x, d.selectItem e = .ok x := by
    intro e _
    obtain ⟨x, hx⟩ := d.exists_expr d.findsAll_single e.unaliased
    rw [selectItem, hx]
    exact ⟨_, rfl⟩
  obtain ⟨xs, hxs⟩ := exists_mapM_eq_ok hitem
  rw [selectItems, hxs]
  exact ⟨_, rfl⟩

theorem exists_orderBy {scope : NameScope} (h : scope.FindsAll d) (keys : List (SortKey Expr)) :
    ∃ x, d.orderBy scope keys = .ok x := by
  obtain ⟨xs, hxs⟩ := d.exists_sortKeys h keys
  rw [orderBy, hxs]
  exact ⟨_, rfl⟩

theorem exists_repeatedOrderBy (input : TableRef) (keys : Option (List (SortKey Expr))) :
    ∃ x, d.repeatedOrderBy input keys = .ok x := by
  unfold repeatedOrderBy
  split
  · exact d.exists_orderBy (d.findsAll_qualified input) _
  · exact ⟨_, rfl⟩

theorem exists_groupBy (keys : List Expr) : ∃ x, d.groupBy keys = .ok x := by
  have hkey : ∀ k ∈ keys, ∃ x, d.expr .single k.unaliased = .ok x :=
    fun k _ => d.exists_expr d.findsAll_single k.unaliased
  obtain ⟨xs, hxs⟩ := exists_mapM_eq_ok hkey
  unfold groupBy
  split
  · exact ⟨_, rfl⟩
  · rw [hxs]
    exact ⟨_, rfl⟩

/-! ### Nodes over one plan -/

/-- A plan is rendered in every form or in none. -/
theorem render_form (f g : Form) (p : Plan) : (d.render f p).FailsAlike (d.render g p) := by
  fun_cases render d f p with
  | case1 | case2 => exact .of_ok rfl rfl
  | case3 batch ref schema =>
    exact .map_left ((FailsAlike.refl (d.values batch schema ref)).map_left.symm)
  | case5 _ _ _ _ hinput | case7 _ _ _ _ hinput | case11 _ _ _ _ _ hinput =>
    rw [render]
    · repeat refine .bind_congr fun _ => ?_
      exact .of_ok rfl rfl
    · exact hinput
  | case4 | case6 | case8 | case9 | case10 | case12 =>
    rw [render]
    repeat refine .bind_congr fun _ => ?_
    exact .of_ok rfl rfl
  | case13 | case14 =>
    rw [render]
    · exact .refl _
    all_goals assumption

variable (f g : Form) (ref : TableRef) (schema : Schema) (c : Plan)

theorem render_order (keys : List (SortKey Expr)) :
    (d.render f (.node (.order keys) ref schema [c])).FailsAlike (d.render g c) := by
  obtain ⟨order, horder⟩ := d.exists_orderBy d.findsAll_single keys
  rw [render]
  simp only [horder, ok_bind]
  exact (d.render_form .source g c).bind_left fun _ => ⟨_, rfl⟩

/-- A SELECT that stands in the place of a sort below it reads the input of the sort. -/
theorem render_project (exprs : List Expr) :
    (d.render f (.node (.project exprs) ref schema [c])).FailsAlike (d.render g c) := by
  obtain ⟨items, hitems⟩ := d.exists_selectItems exprs
  by_cases hc : ∃ keys inner s input, c = .node (.order keys) inner s [input]
  · obtain ⟨keys, inner, s, input, rfl⟩ := hc
    obtain ⟨order, horder⟩ := d.exists_repeatedOrderBy input.ref (some keys)
    have hinput := (d.render_order g .source inner s input keys).symm
    rw [render]
    simp only [hitems, horder, ok_bind]
    exact hinput.bind_left fun _ => ⟨_, rfl⟩
  · obtain ⟨order, horder⟩ := d.exists_repeatedOrderBy c.ref c.ordering?
    have hinput := d.render_form .source g c
    rw [render]
    · simp only [hitems, horder, ok_bind]
      exact hinput.bind_left fun _ => ⟨_, rfl⟩
    · exact fun keys inner s input heq => hc ⟨keys, inner, s, input, heq⟩

theorem render_filter (predicate : Expr) :
    (d.render f (.node (.filter predicate) ref schema [c])).FailsAlike (d.render g c) := by
  obtain ⟨condition, hcondition⟩ := d.exists_expr d.findsAll_single predicate
  by_cases hc : ∃ keys inner s input, c = .node (.order keys) inner s [input]
  · obtain ⟨keys, inner, s, input, rfl⟩ := hc
    obtain ⟨order, horder⟩ := d.exists_repeatedOrderBy input.ref (some keys)
    have hinput := (d.render_order g .source inner s input keys).symm
    rw [render]
    simp only [hcondition, horder, ok_bind]
    exact hinput.bind_left fun _ => ⟨_, rfl⟩
  · obtain ⟨order, horder⟩ := d.exists_repeatedOrderBy c.ref c.ordering?
    have hinput := d.render_form .source g c
    rw [render]
    · simp only [hcondition, horder, ok_bind]
      exact hinput.bind_left fun _ => ⟨_, rfl⟩
    · exact fun keys inner s input heq => hc ⟨keys, inner, s, input, heq⟩

theorem render_aggregate (keys metrics : List Expr) :
    (d.render f (.node (.aggregate keys metrics) ref schema [c])).FailsAlike (d.render g c) := by
  obtain ⟨items, hitems⟩ := d.exists_selectItems (keys ++ metrics)
  obtain ⟨groups, hgroups⟩ := d.exists_groupBy keys
  rw [render]
  simp only [hitems, hgroups, ok_bind]
  exact (d.render_form .source g c).bind_left fun _ => ⟨_, rfl⟩

/-- A limit over a limit reads it like a table; over any other node it is put behind its SELECT. -/
theorem render_limit (n : Option Nat) (offset : Nat) :
    (d.render f (.node (.limit n offset) ref schema [c])).FailsAlike (d.render g c) := by
  by_cases hc : ∃ m skipped inner s children, c = .node (.limit m skipped) inner s children
  · obtain ⟨m, skipped, inner, s, children, rfl⟩ := hc
    obtain ⟨order, horder⟩ := d.exists_repeatedOrderBy inner
      (Plan.node (.limit m skipped) inner s children).ordering?
    rw [render]
    simp only [horder, ok_bind]
    exact (d.render_form .source g _).bind_left fun _ => ⟨_, rfl⟩
  · rw [render]
    · exact (d.render_form .statement g c).bind_left fun _ => ⟨_, rfl⟩
    · exact fun m skipped inner s children heq => hc ⟨m, skipped, inner, s, children, heq⟩

/-- **A node over one plan is rendered if the plan is**, and fails with its errors. -/
theorem render_unary {op : Operation} (hop : op.readsOne = true) :
    (d.render f (.node op ref schema [c])).FailsAlike (d.render g c) := by
  cases op with
  | project exprs => exact d.render_project f g ref schema c exprs
  | filter predicate => exact d.render_filter f g ref schema c predicate
  | aggregate keys metrics => exact d.render_aggregate f g ref schema c keys metrics
  | order keys => exact d.render_order f g ref schema c keys
  | limit n offset => exact d.render_limit f g ref schema c n offset
  | _ => cases hop

end Dialect

end Sql

end TableQuery
