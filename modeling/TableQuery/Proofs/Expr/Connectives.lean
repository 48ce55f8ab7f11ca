import TableQuery.Proofs.Expr.Placement

/-! # Connectives merged and taken apart

In three-valued logic the value of a connective over some operands can stand in for them, wherever
they stand among further ones (`connectFrom_append`). So the builders of connectives may merge
nested ones, and a conjunction may be taken apart and put together again, without a change of value
(`connectives_keep_values`): on every row on which all operands that are no connectives themselves
come to truth values or null. -/

namespace TableQuery

namespace Scalar

/-- The values of three-valued logic. -/
def IsTruth (v : Scalar) : Prop := v = .null ∨ ∃ b, v = boolean b

variable {op : Connective}

/-- **A connective goes on from the value of its first operands.** A null among the operands before
these is remembered. -/
theorem connectFrom_append {s t : Bool} {xs : List Scalar} {x : Scalar}
    (h : connectFrom op s xs = .ok x) (ys : List Scalar) :
    connectFrom op (s || t) (xs ++ ys) = connectFrom op t (x :: ys) := by
  induction xs generalizing s with
  | nil =>
    cases s
    · cases h
      cases op <;> rfl
    · cases h
      rfl
  | cons v xs ih =>
    cases v with
    | null => exact ih (s := true) h
    | boolean b =>
      rw [connectFrom] at h
      rw [List.cons_append, connectFrom]
      by_cases hb : b = decisive op
      · rw [if_pos hb] at h
        cases h
        rw [connectFrom, if_pos hb, if_pos hb]
      · rw [if_neg hb] at h
        rw [if_neg hb]
        exact ih h
    | _ => cases h

/-- The values of two lists of operands are connected like the operands. -/
theorem connect_append {xs ys : List Scalar} {x y : Scalar} (hx : connect op xs = .ok x)
    (hy : connect op ys = .ok y) : connect op (xs ++ ys) = connect op [x, y] := by
  have hrest : ∀ t, connectFrom op t ys = connectFrom op t [y] := fun t => by
    simpa using connectFrom_append (t := t) hy []
  rw [connect, ← Bool.or_false false, connectFrom_append hx, connect]
  cases x with
  | null => exact hrest true
  | boolean b =>
    rw [connectFrom, connectFrom, hrest]
  | _ => rfl

@[simp] theorem connect_singleton {v : Scalar} (h : v.IsTruth) : connect op [v] = .ok v := by
  obtain rfl | ⟨b, rfl⟩ := h
  · rfl
  · cases op <;> cases b <;> rfl

/-- Truth values and nulls have a connective, which is one of these. -/
theorem exists_connect {vs : List Scalar} (h : ∀ v ∈ vs, v.IsTruth) :
    ∃ v, connect op vs = .ok v ∧ v.IsTruth := by
  obtain ⟨v, hv, hconf⟩ := connectFrom_ok op true false h
  exact ⟨v, hv, hconf.boolean_or_null (.inl rfl)⟩

end Scalar

namespace Expr

open Scalar

/-! ### Operands that are no connectives -/

mutual

/-- The operands under an expression's connectives that are no connectives themselves. -/
def leaves : Expr → List Expr
  | .conj _ es => leavesOfAll es
  | .column table name => [.column table name]
  | .literal v => [.literal v]
  | .arith op a b => [.arith op a b]
  | .compare op a b => [.compare op a b]
  | .unary op e => [.unary op e]
  | .aggregate f input => [.aggregate f input]
  | .window f input ps ks => [.window f input ps ks]
  | .aliased name e => [.aliased name e]

def leavesOfAll : List Expr → List Expr
  | [] => []
  | e :: r => leaves e ++ leavesOfAll r

end

theorem leavesOfAll_append (es fs : List Expr) :
    leavesOfAll (es ++ fs) = leavesOfAll es ++ leavesOfAll fs := by
  induction es with
  | nil => rfl
  | cons e es ih => rw [List.cons_append, leavesOfAll, leavesOfAll, ih, List.append_assoc]

theorem mem_leavesOfAll_iff {l : Expr} {es : List Expr} :
    l ∈ leavesOfAll es ↔ ∃ e ∈ es, l ∈ e.leaves := by
  induction es with
  | nil => simp [leavesOfAll]
  | cons e es ih => simp [leavesOfAll, ih]

theorem leavesOfAll_operandsOf (op : Connective) (e : Expr) :
    leavesOfAll (e.operandsOf op) = e.leaves := by
  cases e with
  | conj o es =>
    rw [operandsOf]
    split
    · rw [leaves]
    · rw [leavesOfAll, leavesOfAll, List.append_nil]
  | _ => rfl

theorem leaves_combine (op : Connective) (a b : Expr) :
    (combine op a b).leaves = a.leaves ++ b.leaves := by
  rw [combine, leaves, leavesOfAll_append, leavesOfAll_operandsOf, leavesOfAll_operandsOf]

/-! ### Values on a row -/

variable (scopes : List Scope) (row : Row)

/-- The value on a row of an expression over the columns of some relations. -/
def evalIn (e : Expr) : Result Scalar := do
  let x ← e.resolve scopes
  x.eval row

/-- Every operand that is no connective itself comes to a truth value or null. -/
def Truthful (e : Expr) : Prop := ∀ l ∈ e.leaves, ∃ v, l.evalIn scopes row = .ok v ∧ v.IsTruth

variable {scopes row} {op : Connective}

/-- A connective over operands that have values. -/
theorem evalIn_conj {es : List Expr} {vs : List Scalar}
    (h : es.mapM (evalIn scopes row) = .ok vs) :
    (conj op es).evalIn scopes row = connect op vs := by
  have hparts : ∃ xs, resolveAll scopes es = .ok xs ∧ RowExpr.evalAll row xs = .ok vs := by
    induction es generalizing vs with
    | nil => exact ⟨[], rfl, h⟩
    | cons e es ih =>
      rw [List.mapM_cons] at h
      obtain ⟨v, hv, h⟩ := Result.bind_eq_ok_iff.mp h
      obtain ⟨x, hx, hxv⟩ := Result.bind_eq_ok_iff.mp hv
      obtain ⟨ws, hws, h⟩ := Result.bind_eq_ok_iff.mp h
      cases h
      obtain ⟨xs, hxs, hvs⟩ := ih hws
      refine ⟨x :: xs, ?_, ?_⟩
      · rw [resolveAll, hx, Result.ok_bind, hxs]
        rfl
      · rw [RowExpr.evalAll, hxv, Result.ok_bind, hvs]
        rfl
  obtain ⟨xs, hxs, hvs⟩ := hparts
  rw [evalIn, resolve, hxs, Result.ok_bind, Result.pure_eq_ok, Result.ok_bind, RowExpr.eval, hvs]
  rfl

theorem truthful_conj_iff {es : List Expr} :
    (conj op es).Truthful scopes row ↔ ∀ e ∈ es, e.Truthful scopes row := by
  simp only [Truthful, leaves, mem_leavesOfAll_iff]
  exact ⟨fun h e he l hl => h l ⟨e, he, hl⟩, fun h l ⟨e, he, hl⟩ => h e he l hl⟩

theorem Truthful.combine (op : Connective) {a b : Expr} (ha : a.Truthful scopes row)
    (hb : b.Truthful scopes row) : (Expr.combine op a b).Truthful scopes row := by
  rw [Truthful, leaves_combine, List.forall_mem_append]
  exact ⟨ha, hb⟩

mutual

theorem Truthful.exists_evalIn : ∀ {e : Expr}, e.Truthful scopes row →
    ∃ v, e.evalIn scopes row = .ok v ∧ v.IsTruth
  | .conj op es, h => by
    obtain ⟨vs, hvs, htruth⟩ := exists_mapM_evalIn (truthful_conj_iff.mp h)
    rw [evalIn_conj hvs]
    exact exists_connect htruth
  | .column _ _, h | .literal _, h | .arith _ _ _, h | .compare _ _ _, h | .unary _ _, h
  | .aggregate _ _, h | .window _ _ _ _, h | .aliased _ _, h => h _ List.mem_cons_self

theorem exists_mapM_evalIn : ∀ {es : List Expr}, (∀ e ∈ es, e.Truthful scopes row) →
    ∃ vs, es.mapM (evalIn scopes row) = .ok vs ∧ ∀ v ∈ vs, v.IsTruth
  | [], _ => ⟨[], rfl, by simp⟩
  | e :: r, h => by
    obtain ⟨he, hr⟩ := List.forall_mem_cons.mp h
    obtain ⟨v, hv, hvt⟩ := Truthful.exists_evalIn he
    obtain ⟨vs, hvs, hvst⟩ := exists_mapM_evalIn hr
    refine ⟨v :: vs, ?_, List.forall_mem_cons.mpr ⟨hvt, hvst⟩⟩
    rw [List.mapM_cons, hv, Result.ok_bind, hvs]
    rfl

end

/-! ### Merging -/

/-- The operands that an expression contributes to a connective come to its value. -/
theorem Truthful.exists_operandsOf (op : Connective) {e : Expr} {v : Scalar}
    (h : e.Truthful scopes row) (hv : e.evalIn scopes row = .ok v) :
    ∃ vs, (e.operandsOf op).mapM (evalIn scopes row) = .ok vs ∧ connect op vs = .ok v := by
  have hsingle : ∃ vs, [e].mapM (evalIn scopes row) = .ok vs ∧ connect op vs = .ok v := by
    obtain ⟨w, hw, htruth⟩ := h.exists_evalIn
    cases hv.symm.trans hw
    exact ⟨[v], by rw [List.mapM_cons, hv]; rfl, connect_singleton htruth⟩
  unfold operandsOf
  split
  · split
    · rename_i hop
      subst hop
      obtain ⟨vs, hvs, -⟩ := exists_mapM_evalIn (truthful_conj_iff.mp h)
      exact ⟨vs, hvs, evalIn_conj hvs ▸ hv⟩
    · exact hsingle
  · exact hsingle

/-- **A merged connective has the value that its two parts have together.** -/
theorem Truthful.evalIn_combine {a b : Expr} {v w : Scalar} (ha : a.Truthful scopes row)
    (hb : b.Truthful scopes row) (hv : a.evalIn scopes row = .ok v)
    (hw : b.evalIn scopes row = .ok w) :
    (Expr.combine op a b).evalIn scopes row = connect op [v, w] := by
  obtain ⟨vs, hvs, hcv⟩ := ha.exists_operandsOf op hv
  obtain ⟨ws, hws, hcw⟩ := hb.exists_operandsOf op hw
  have hall : (a.operandsOf op ++ b.operandsOf op).mapM (evalIn scopes row) = .ok (vs ++ ws) := by
    rw [List.mapM_append, hvs, hws]
    rfl
  rw [Expr.combine, evalIn_conj hall, connect_append hcv hcw]

/-! ### Taking apart -/

mutual

/-- The conjuncts come to the value of the expression. -/
theorem Truthful.exists_conjuncts : ∀ {e : Expr} {v : Scalar}, e.Truthful scopes row →
    e.evalIn scopes row = .ok v →
      ∃ vs, e.conjuncts.mapM (evalIn scopes row) = .ok vs ∧ connect .and vs = .ok v
  | .conj .and es, v, h, hv => by
    have hes := truthful_conj_iff.mp h
    obtain ⟨vs, hvs, -⟩ := exists_mapM_evalIn hes
    obtain ⟨ws, hws, hsame⟩ := exists_conjunctsOfAll hes hvs
    rw [evalIn_conj hvs] at hv
    exact ⟨ws, hws, (hsame false).trans hv⟩
  -- No other expression is a conjunction, so it is its only conjunct and operand.
  | .conj .or _, _, h, hv | .column _ _, _, h, hv | .literal _, _, h, hv | .arith _ _ _, _, h, hv
  | .compare _ _ _, _, h, hv | .unary _ _, _, h, hv | .aggregate _ _, _, h, hv
  | .window _ _ _ _, _, h, hv | .aliased _ _, _, h, hv => h.exists_operandsOf .and hv

theorem exists_conjunctsOfAll : ∀ {es : List Expr} {vs : List Scalar},
    (∀ e ∈ es, e.Truthful scopes row) → es.mapM (evalIn scopes row) = .ok vs →
      ∃ ws, (conjunctsOfAll es).mapM (evalIn scopes row) = .ok ws ∧
        ∀ s, connectFrom .and s ws = connectFrom .and s vs
  | [], vs, _, hvs => ⟨vs, hvs, fun _ => rfl⟩
  | e :: r, _, h, hvs => by
    obtain ⟨he, hr⟩ := List.forall_mem_cons.mp h
    rw [List.mapM_cons] at hvs
    obtain ⟨v, hv, hvs⟩ := Result.bind_eq_ok_iff.mp hvs
    obtain ⟨us, hus, hvs⟩ := Result.bind_eq_ok_iff.mp hvs
    cases hvs
    obtain ⟨xs, hxs, hx⟩ := Truthful.exists_conjuncts he hv
    obtain ⟨ys, hys, hy⟩ := exists_conjunctsOfAll hr hus
    refine ⟨xs ++ ys, ?_, fun s => ?_⟩
    · rw [conjunctsOfAll, List.mapM_append, hxs, hys]
      rfl
    · rw [← Bool.false_or s, connectFrom_append hx, Bool.false_or]
      cases v with
      | null => exact hy true
      | boolean b => rw [connectFrom, connectFrom, hy]
      | _ => rfl

end

/-! ### Putting together -/

/-- The conjunction of a list, built from the left, has the value of all its parts together. -/
theorem evalIn_foldl_and {r : List Expr} {a : Expr} {v : Scalar} {vs : List Scalar}
    (ha : a.Truthful scopes row) (hr : ∀ e ∈ r, e.Truthful scopes row)
    (hv : a.evalIn scopes row = .ok v) (hvs : r.mapM (evalIn scopes row) = .ok vs) :
    (r.foldl Expr.and a).evalIn scopes row = connect .and (v :: vs) := by
  induction r generalizing a v vs with
  | nil =>
    cases hvs
    obtain ⟨w, hw, htruth⟩ := ha.exists_evalIn
    cases hv.symm.trans hw
    exact hv.trans (connect_singleton htruth).symm
  | cons b r ih =>
    obtain ⟨hb, hr⟩ := List.forall_mem_cons.mp hr
    rw [List.mapM_cons] at hvs
    obtain ⟨w, hw, hvs⟩ := Result.bind_eq_ok_iff.mp hvs
    obtain ⟨ws, hws, hvs⟩ := Result.bind_eq_ok_iff.mp hvs
    cases hvs
    have hboth : (a.and b).Truthful scopes row := ha.combine .and hb
    obtain ⟨u, hu, -⟩ := hboth.exists_evalIn
    have hvalue : connect .and [v, w] = .ok u := ha.evalIn_combine hb hv hw ▸ hu
    rw [List.foldl_cons, ih hboth hr hu hws]
    exact (connectFrom_append (t := false) hvalue ws).symm

/-- **Merging and taking apart connectives keeps values.** On a row on which the operands that are
no connectives come to truth values or null, two expressions joined by a builder have the value of
the connective over their two values, and the conjuncts of an expression, joined again, have its
value. -/
theorem connectives_keep_values (scopes : List Scope) (row : Row) :
    (∀ (op : Connective) (a b : Expr), a.Truthful scopes row → b.Truthful scopes row →
      ∃ v w u, a.evalIn scopes row = .ok v ∧ b.evalIn scopes row = .ok w ∧
        connect op [v, w] = .ok u ∧ (combine op a b).evalIn scopes row = .ok u) ∧
    ∀ e : Expr, e.Truthful scopes row → e.conjuncts ≠ [] →
      ∃ c v, conjunction? e.conjuncts = some c ∧ e.evalIn scopes row = .ok v ∧
        c.evalIn scopes row = .ok v := by
  constructor
  · intro op a b ha hb
    obtain ⟨v, hv, -⟩ := ha.exists_evalIn
    obtain ⟨w, hw, -⟩ := hb.exists_evalIn
    obtain ⟨u, hu, -⟩ := (ha.combine op hb).exists_evalIn
    exact ⟨v, w, u, hv, hw, ha.evalIn_combine hb hv hw ▸ hu, hu⟩
  · intro e he hne
    obtain ⟨v, hv, -⟩ := he.exists_evalIn
    obtain ⟨vs, hvs, hvalue⟩ := he.exists_conjuncts hv
    have hparts : ∀ c ∈ e.conjuncts, c.Truthful scopes row :=
      (forall_conjuncts_iff (fun _ => truthful_conj_iff) e).mpr he
    cases hc : e.conjuncts with
    | nil => exact absurd hc hne
    | cons a r =>
      rw [hc] at hvs hparts
      obtain ⟨ha, hr⟩ := List.forall_mem_cons.mp hparts
      rw [List.mapM_cons] at hvs
      obtain ⟨x, hx, hvs⟩ := Result.bind_eq_ok_iff.mp hvs
      obtain ⟨xs, hxs, hvs⟩ := Result.bind_eq_ok_iff.mp hvs
      cases hvs
      exact ⟨_, v, rfl, hv, (evalIn_foldl_and ha hr hx hxs).trans hvalue⟩

/-- A null beside connectives of no operand and of one. -/
theorem connectives_keep_values_nested :
    let scopes := Scope.single ⟨[("a", .boolean), ("b", .boolean)], by decide⟩
    let row : Row := [.null, .boolean true]
    let a := conj .and [col "a", conj .or [col "b", conj .and []]]
    let e := conj .and [conj .and [], a, conj .and [col "b"]]
    a.Truthful scopes row ∧ e.Truthful scopes row ∧ e.conjuncts ≠ [] ∧
      a.evalIn scopes row = .ok .null ∧ (a.and e).evalIn scopes row = connect .and [.null, .null] ∧
      ∃ c, conjunction? e.conjuncts = some c ∧ c.evalIn scopes row = .ok .null := by
  intro scopes row a e
  have hcol : ∀ l ∈ [col "a", col "b"], ∃ v, l.evalIn scopes row = .ok v ∧ v.IsTruth := by
    simp only [List.forall_mem_cons]
    exact ⟨⟨.null, rfl, .inl rfl⟩, ⟨.boolean true, rfl, .inr ⟨true, rfl⟩⟩, by simp⟩
  have ha : a.Truthful scopes row := hcol
  have he : e.Truthful scopes row := by
    rw [truthful_conj_iff]
    simp only [List.forall_mem_cons]
    exact ⟨fun _ h => (nomatch h), ha, fun l hl => hcol l (List.mem_cons_of_mem _ hl), by simp⟩
  have hne : e.conjuncts ≠ [] := List.cons_ne_nil _ _
  obtain ⟨hmerge, hapart⟩ := connectives_keep_values scopes row
  obtain ⟨v, w, u, hv, hw, hu, hvalue⟩ := hmerge .and a e ha he
  obtain ⟨c, x, hc, hx, hcx⟩ := hapart e he hne
  have hanull : a.evalIn scopes row = .ok .null := rfl
  have henull : e.evalIn scopes row = .ok .null := rfl
  cases hanull.symm.trans hv
  cases henull.symm.trans hw
  cases henull.symm.trans hx
  exact ⟨ha, he, hne, hanull, hvalue.trans hu.symm, c, hc, hcx⟩

end Expr

end TableQuery
