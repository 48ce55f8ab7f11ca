import TableQuery.Proofs.Expr.Soundness

/-! # Expressions under a placement of their columns

What an expression reads is settled by the place in the row that each column reference is given.
`resolveWith` resolves under any such placement, and `resolve` is the case where scopes give the
places (`resolve_eq_resolveWith`). An expression with its columns replaced resolves as before under
a placement that takes the replacement back (`resolveWith_mapColumnsM_iff`).

A property that a conjunction has exactly when all its operands do is settled by the conjuncts
(`forall_conjuncts_iff`, `forall_conjunction?_iff`). Being resolved and being true on a row are such
properties. -/

namespace TableQuery

/-- A conjunction is true when all its operands are. -/
theorem Scalar.connectFrom_and_eq_true_iff : ∀ {vs : List Scalar} {sawNull : Bool},
    connectFrom .and sawNull vs = .ok (boolean true) ↔
      sawNull = false ∧ ∀ v ∈ vs, v = boolean true
  | [], sawNull => by cases sawNull <;> simp [connectFrom, decisive]
  | null :: r, sawNull => by simp [connectFrom, @connectFrom_and_eq_true_iff r]
  | boolean b :: r, sawNull => by
    cases b <;> simp [connectFrom, decisive, @connectFrom_and_eq_true_iff r]
  | int _ _ :: _, _ | float _ _ :: _, _ | decimal _ :: _, _ | utf8 _ :: _, _ | binary _ :: _, _
  | date _ :: _, _ | time _ :: _, _ | timestamp _ _ :: _, _ | interval _ :: _, _ | list _ :: _, _
  | struct _ :: _, _ => by simp [connectFrom]

/-- The place in a row, and the type, of each column reference that has one. -/
abbrev Placement := ColumnRef → Result (Nat × DataType)

/-- The places that scopes give. -/
def Scope.placement (scopes : List Scope) : Placement := fun c =>
  match resolve? scopes c with
  | some p => .ok p
  | none => .error (.typing (.unresolvedColumn c.name))

namespace Expr

mutual

/-- The expression over positions, every column reference at its place. -/
def resolveWith (place : Placement) : Expr → Result RowExpr
  | .column table name => (place ⟨table, name⟩).map fun p => .column p.1 p.2
  | .literal v => .ok (.literal v)
  | .arith op a b => do
    let x ← resolveWith place a
    let y ← resolveWith place b
    let t ← op.resultType x.type y.type
    return .arith op x y t
  | .compare op a b => do
    let x ← resolveWith place a
    let y ← resolveWith place b
    let t ← op.resultType x.type y.type
    return .compare op x y t
  | .conj op es => do
    let xs ← resolveAllWith place es
    return .conj op xs (.base .boolean (xs.any (·.type.nullable)))
  | .unary op e => do
    let x ← resolveWith place e
    let t ← op.resultType x.type
    return .unary op x t
  | .aliased _ e => resolveWith place e
  | .aggregate f input => .error (.typing (.notScalar (.aggregate f input)))
  | .window f input ps ks => .error (.typing (.notScalar (.window f input ps ks)))

def resolveAllWith (place : Placement) : List Expr → Result (List RowExpr)
  | [] => .ok []
  | e :: r => do
    let x ← resolveWith place e
    let xs ← resolveAllWith place r
    return x :: xs

end

mutual

/-- **Scopes are one way to place columns.** -/
theorem resolve_eq_resolveWith (scopes : List Scope) :
    ∀ e : Expr, e.resolve scopes = e.resolveWith (Scope.placement scopes)
  | .column table name => by
    rw [resolve, resolveWith, Scope.placement]
    cases Scope.resolve? scopes ⟨table, name⟩ <;> rfl
  | .literal _ | .aggregate _ _ | .window _ _ _ _ => rfl
  | .arith op a b => by
    rw [resolve, resolveWith, resolve_eq_resolveWith scopes a, resolve_eq_resolveWith scopes b]
  | .compare op a b => by
    rw [resolve, resolveWith, resolve_eq_resolveWith scopes a, resolve_eq_resolveWith scopes b]
  | .conj op es => by
    rw [resolve, resolveWith, resolveAll_eq_resolveAllWith scopes es]
  | .unary op e => by
    rw [resolve, resolveWith, resolve_eq_resolveWith scopes e]
  | .aliased _ e => resolve_eq_resolveWith scopes e

theorem resolveAll_eq_resolveAllWith (scopes : List Scope) :
    ∀ es : List Expr, resolveAll scopes es = resolveAllWith (Scope.placement scopes) es
  | [] => rfl
  | e :: r => by
    rw [resolveAll, resolveAllWith, resolve_eq_resolveWith scopes e,
      resolveAll_eq_resolveAllWith scopes r]

end

variable {place : Placement}

theorem resolveWith_unaliased (place : Placement) :
    ∀ e : Expr, e.unaliased.resolveWith place = e.resolveWith place
  | .aliased _ e => resolveWith_unaliased place e
  | .column _ _ | .literal _ | .arith _ _ _ | .compare _ _ _ | .conj _ _ | .unary _ _
  | .aggregate _ _ | .window _ _ _ _ => rfl

theorem resolveAllWith_eq_mapM (place : Placement) :
    ∀ es : List Expr, resolveAllWith place es = es.mapM (resolveWith place)
  | [] => rfl
  | e :: r => by rw [resolveAllWith, resolveAllWith_eq_mapM place r, List.mapM_cons]

/-! ### Replacing columns -/

variable {f : ColumnRef → Result Expr} {p p' : Placement}

mutual

/-- Columns that stand in for columns bring in no aggregates and no windows. -/
theorem Plain.mapColumnsM (hf : ∀ c e, f c = .ok e → e.Plain) : ∀ {e q : Expr}, e.Plain →
    e.mapColumnsM f = .ok q → q.Plain
  | .column table name, q, _, h => hf _ _ h
  | .literal v, q, he, h => by
    cases h
    exact he
  | .arith op a b, q, he, h => by
    simp only [Expr.mapColumnsM, Result.bind_eq_ok_iff, Result.pure_eq_ok] at h
    obtain ⟨x, hx, y, hy, h⟩ := h
    cases h
    obtain ⟨hap, hbp⟩ := plain_arith_iff.mp he
    have hxp := Plain.mapColumnsM hf hap hx
    have hyp := Plain.mapColumnsM hf hbp hy
    exact ⟨Bool.or_eq_false_iff.mpr ⟨hxp.1, hyp.1⟩, Bool.or_eq_false_iff.mpr ⟨hxp.2, hyp.2⟩⟩
  | .compare op a b, q, he, h => by
    simp only [Expr.mapColumnsM, Result.bind_eq_ok_iff, Result.pure_eq_ok] at h
    obtain ⟨x, hx, y, hy, h⟩ := h
    cases h
    obtain ⟨hap, hbp⟩ := plain_compare_iff.mp he
    have hxp := Plain.mapColumnsM hf hap hx
    have hyp := Plain.mapColumnsM hf hbp hy
    exact ⟨Bool.or_eq_false_iff.mpr ⟨hxp.1, hyp.1⟩, Bool.or_eq_false_iff.mpr ⟨hxp.2, hyp.2⟩⟩
  | .conj op es, q, he, h => by
    simp only [Expr.mapColumnsM, Result.bind_eq_ok_iff, Result.pure_eq_ok] at h
    obtain ⟨xs, hxs, h⟩ := h
    cases h
    exact PlainAll.mapColumnsOfAllM hf he hxs
  | .unary op e, q, he, h => by
    simp only [Expr.mapColumnsM, Result.bind_eq_ok_iff, Result.pure_eq_ok] at h
    obtain ⟨x, hx, h⟩ := h
    cases h
    have hep : e.Plain := he
    exact (hep.mapColumnsM hf hx : x.Plain)
  | .aliased _ e, q, he, h => by
    simp only [Expr.mapColumnsM, Result.bind_eq_ok_iff, Result.pure_eq_ok] at h
    obtain ⟨x, hx, h⟩ := h
    cases h
    have hep : e.Plain := he
    exact (hep.mapColumnsM hf hx : x.Plain)
  | .aggregate _ _, _, he, _ => by simp [Plain, hasAggregate] at he
  | .window _ _ _ _, _, he, _ => by simp [Plain, hasWindow] at he

theorem PlainAll.mapColumnsOfAllM (hf : ∀ c e, f c = .ok e → e.Plain) : ∀ {es qs : List Expr},
    PlainAll es → Expr.mapColumnsOfAllM f es = .ok qs → PlainAll qs
  | [], _, he, h => by
    cases h
    exact he
  | e :: r, _, he, h => by
    simp only [Expr.mapColumnsOfAllM, Result.bind_eq_ok_iff, Result.pure_eq_ok] at h
    obtain ⟨x, hx, y, hy, h⟩ := h
    cases h
    obtain ⟨hep, hrp⟩ := plainAll_cons_iff.mp he
    have hxp := Plain.mapColumnsM hf hep hx
    have hyp := PlainAll.mapColumnsOfAllM hf hrp hy
    exact ⟨Bool.or_eq_false_iff.mpr ⟨hxp.1, hyp.1⟩, Bool.or_eq_false_iff.mpr ⟨hxp.2, hyp.2⟩⟩

end

mutual

/-- **Replaced columns read what a placement gave the columns before**, when the replacement of each
one does. -/
theorem resolveWith_mapColumnsM_iff
    (hf : ∀ c q, f c = .ok q → ∀ x, q.resolveWith p' = .ok x ↔ (ofColumn c).resolveWith p = .ok x) :
    ∀ {e q : Expr}, e.mapColumnsM f = .ok q →
      ∀ {x : RowExpr}, q.resolveWith p' = .ok x ↔ e.resolveWith p = .ok x
  | .column table name, q, h, x => hf _ _ h x
  | .literal v, q, h, x => by
    cases h
    exact Iff.rfl
  | .arith op a b, q, h, x => by
    simp only [mapColumnsM, Result.bind_eq_ok_iff, Result.pure_eq_ok] at h
    obtain ⟨qa, ha, qb, hb, h⟩ := h
    cases h
    simp only [resolveWith, Result.bind_eq_ok_iff, resolveWith_mapColumnsM_iff hf ha,
      resolveWith_mapColumnsM_iff hf hb]
  | .compare op a b, q, h, x => by
    simp only [mapColumnsM, Result.bind_eq_ok_iff, Result.pure_eq_ok] at h
    obtain ⟨qa, ha, qb, hb, h⟩ := h
    cases h
    simp only [resolveWith, Result.bind_eq_ok_iff, resolveWith_mapColumnsM_iff hf ha,
      resolveWith_mapColumnsM_iff hf hb]
  | .conj op es, q, h, x => by
    simp only [mapColumnsM, Result.bind_eq_ok_iff, Result.pure_eq_ok] at h
    obtain ⟨qs, hs, h⟩ := h
    cases h
    simp only [resolveWith, Result.bind_eq_ok_iff, resolveAllWith_mapColumnsOfAllM_iff hf hs]
  | .unary op e, q, h, x => by
    simp only [mapColumnsM, Result.bind_eq_ok_iff, Result.pure_eq_ok] at h
    obtain ⟨qe, he, h⟩ := h
    cases h
    simp only [resolveWith, Result.bind_eq_ok_iff, resolveWith_mapColumnsM_iff hf he]
  | .aliased _ e, q, h, x => by
    simp only [mapColumnsM, Result.bind_eq_ok_iff, Result.pure_eq_ok] at h
    obtain ⟨qe, he, h⟩ := h
    cases h
    exact resolveWith_mapColumnsM_iff hf he
  -- Aggregates and windows resolve under no placement.
  | .aggregate _ _, q, h, x => by
    simp only [mapColumnsM, Result.bind_eq_ok_iff, Result.pure_eq_ok] at h
    obtain ⟨_, -, h⟩ := h
    cases h
    simp [resolveWith]
  | .window _ _ _ _, q, h, x => by
    simp only [mapColumnsM, Result.bind_eq_ok_iff, Result.pure_eq_ok] at h
    obtain ⟨_, -, _, -, _, -, h⟩ := h
    cases h
    simp [resolveWith]

theorem resolveAllWith_mapColumnsOfAllM_iff
    (hf : ∀ c q, f c = .ok q → ∀ x, q.resolveWith p' = .ok x ↔ (ofColumn c).resolveWith p = .ok x) :
    ∀ {es qs : List Expr}, mapColumnsOfAllM f es = .ok qs →
      ∀ {xs : List RowExpr}, resolveAllWith p' qs = .ok xs ↔ resolveAllWith p es = .ok xs
  | [], qs, h, xs => by
    cases h
    exact Iff.rfl
  | e :: r, qs, h, xs => by
    simp only [mapColumnsOfAllM, Result.bind_eq_ok_iff, Result.pure_eq_ok] at h
    obtain ⟨qe, he, qr, hr, h⟩ := h
    cases h
    simp only [resolveAllWith, Result.bind_eq_ok_iff, resolveWith_mapColumnsM_iff hf he,
      resolveAllWith_mapColumnsOfAllM_iff hf hr]

end

/-! ### Conjunctions -/

/-- **A property of conjunctions is that of their operands.** -/
def Conjunctive (P : Expr → Prop) : Prop := ∀ es, P (.conj .and es) ↔ ∀ e ∈ es, P e

variable {P : Expr → Prop}

mutual

theorem forall_conjuncts_iff (hP : Conjunctive P) : ∀ e : Expr, (∀ c ∈ e.conjuncts, P c) ↔ P e
  | .conj .and es => by
    rw [conjuncts, forall_conjunctsOfAll_iff hP es, hP]
  | .conj .or _ | .column _ _ | .literal _ | .arith _ _ _ | .compare _ _ _ | .unary _ _
  | .aggregate _ _ | .window _ _ _ _ | .aliased _ _ => by simp [conjuncts]

theorem forall_conjunctsOfAll_iff (hP : Conjunctive P) : ∀ es : List Expr,
    (∀ c ∈ conjunctsOfAll es, P c) ↔ ∀ e ∈ es, P e
  | [] => by simp [conjunctsOfAll]
  | e :: r => by
    rw [conjunctsOfAll, List.forall_mem_append, forall_conjuncts_iff hP e,
      forall_conjunctsOfAll_iff hP r, List.forall_mem_cons]

end

theorem forall_operandsOf_iff (hP : Conjunctive P) (e : Expr) :
    (∀ c ∈ e.operandsOf .and, P c) ↔ P e := by
  unfold operandsOf
  split
  · split
    · rename_i h
      rw [h, hP]
    · simp
  · simp

theorem and_iff (hP : Conjunctive P) (a b : Expr) : P (a.and b) ↔ P a ∧ P b := by
  rw [Expr.and, combine, hP, List.forall_mem_append, forall_operandsOf_iff hP,
    forall_operandsOf_iff hP]

theorem forall_conjunction?_iff (hP : Conjunctive P) {es : List Expr} {e : Expr}
    (h : conjunction? es = some e) : P e ↔ ∀ c ∈ es, P c := by
  have hfold : ∀ (r : List Expr) (a : Expr), P (r.foldl Expr.and a) ↔ P a ∧ ∀ c ∈ r, P c := by
    intro r
    induction r with
    | nil => simp
    | cons b r ih =>
      intro a
      rw [List.foldl_cons, ih, and_iff hP, List.forall_mem_cons, and_assoc]
  cases es with
  | nil => cases h
  | cons a r =>
    cases h
    rw [hfold, List.forall_mem_cons]

/-- The expression resolves under a placement. -/
def Resolves (place : Placement) (e : Expr) : Prop := ∃ x, e.resolveWith place = .ok x

/-- **The expression is true on a row** whose values it reads by a placement. -/
def TrueOn (place : Placement) (row : Row) (e : Expr) : Prop :=
  ∃ x, e.resolveWith place = .ok x ∧ x.eval row = .ok (.boolean true)

theorem conjunctive_resolves (place : Placement) : Conjunctive (Resolves place) := by
  intro es
  simp only [Resolves, resolveWith, Result.bind_eq_ok_iff, resolveAllWith_eq_mapM]
  constructor
  · rintro ⟨_, xs, hxs, -⟩ e he
    obtain ⟨x, -, hx⟩ := Result.exists_of_mapM hxs he
    exact ⟨x, hx⟩
  · intro h
    obtain ⟨xs, hxs⟩ := Result.exists_mapM_eq_ok h
    exact ⟨_, xs, hxs, rfl⟩

theorem conjunctive_trueOn (place : Placement) (row : Row) : Conjunctive (TrueOn place row) := by
  intro es
  simp only [TrueOn, resolveWith, Result.bind_eq_ok_iff, resolveAllWith_eq_mapM]
  constructor
  · rintro ⟨_, ⟨xs, hxs, h⟩, hv⟩ e he
    cases h
    simp only [RowExpr.eval, Result.bind_eq_ok_iff, RowExpr.evalAll_eq_mapM, Scalar.connect] at hv
    obtain ⟨vs, hvs, hv⟩ := hv
    obtain ⟨x, hx, hex⟩ := Result.exists_of_mapM hxs he
    obtain ⟨v, hvmem, hxv⟩ := Result.exists_of_mapM hvs hx
    rw [(Scalar.connectFrom_and_eq_true_iff.mp hv).2 v hvmem] at hxv
    exact ⟨x, hex, hxv⟩
  · intro h
    obtain ⟨xs, hxs⟩ := Result.exists_mapM_eq_ok fun e he => (h e he).imp fun _ => And.left
    have htrue : ∀ x ∈ xs, x.eval row = .ok (.boolean true) := by
      intro x hx
      obtain ⟨e, he, hex⟩ := Result.exists_of_mem_mapM hxs x hx
      obtain ⟨y, hey, hy⟩ := h e he
      rw [hex] at hey
      cases hey
      exact hy
    refine ⟨_, ⟨xs, hxs, rfl⟩, ?_⟩
    rw [RowExpr.eval, RowExpr.evalAll_eq_mapM, Result.mapM_eq_ok_map htrue, Result.ok_bind,
      Scalar.connect, Scalar.connectFrom_and_eq_true_iff]
    exact ⟨rfl, fun v hv => (List.mem_map.mp hv).elim fun _ h => h.2.symm⟩

end Expr

end TableQuery
