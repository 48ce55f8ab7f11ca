import TableQuery.Proofs.Expr.Windows

/-! # Expressions and the columns they read

What an expression is worth is settled by the columns that it reads. Where these have the same types
in two schemas, the expression has the same type in both (`typeIn_congr`), and over rows on which
they have the same values it has the same value (`resolve_congr`). Sort keys that are resolved over
one schema are then resolved over the other, with the same values and the same order
(`SortKey.resolveAll_congr`). An expression with its columns replaced reads the columns of what
stands in for them (`replaces_of_mapColumnsM`). -/

namespace TableQuery

namespace Expr

variable {s w : Schema}

/-! ### Types -/

mutual

/-- **The type of an expression** is settled by those of the columns that it reads. -/
theorem typeIn_congr : ∀ {e : Expr},
    (∀ c ∈ e.columns, w.typeOf c.name = s.typeOf c.name) → e.typeIn w = e.typeIn s
  | .column _ _, h => h _ List.mem_cons_self
  | .literal _, _ => rfl
  | .arith op a b, h => by
    obtain ⟨ha, hb⟩ := List.forall_mem_append.mp h
    rw [typeIn, typeIn, typeIn_congr ha, typeIn_congr hb]
  | .compare op a b, h => by
    obtain ⟨ha, hb⟩ := List.forall_mem_append.mp h
    rw [typeIn, typeIn, typeIn_congr ha, typeIn_congr hb]
  | .conj op es, h => by rw [typeIn, typeIn, nullableOperandsIn_congr h]
  | .unary op e, h => by rw [typeIn, typeIn, typeIn_congr (e := e) h]
  | .aggregate f input, h => by rw [typeIn, typeIn, inputTypeIn_congr h]
  | .window f input ps ks, h => by
    obtain ⟨h, hks⟩ := List.forall_mem_append.mp h
    obtain ⟨hinput, hps⟩ := List.forall_mem_append.mp h
    cases f <;>
      simp only [typeIn, checkAllIn_congr hps, checkKeysIn_congr hks, inputTypeIn_congr hinput]
  | .aliased _ e, h => typeIn_congr (e := e) h

theorem inputTypeIn_congr : ∀ {input : Option Expr},
    (∀ c ∈ columnsOfInput input, w.typeOf c.name = s.typeOf c.name) →
      inputTypeIn w input = inputTypeIn s input
  | none, _ => rfl
  | some e, h => typeIn_congr (e := e) h

theorem nullableOperandsIn_congr {op : Connective} : ∀ {es : List Expr},
    (∀ c ∈ columnsOfAll es, w.typeOf c.name = s.typeOf c.name) →
      nullableOperandsIn w op es = nullableOperandsIn s op es
  | [], _ => rfl
  | e :: r, h => by
    obtain ⟨he, hr⟩ := List.forall_mem_append.mp h
    rw [nullableOperandsIn, nullableOperandsIn, typeIn_congr he, nullableOperandsIn_congr hr]

theorem checkAllIn_congr : ∀ {es : List Expr},
    (∀ c ∈ columnsOfAll es, w.typeOf c.name = s.typeOf c.name) → checkAllIn w es = checkAllIn s es
  | [], _ => rfl
  | e :: r, h => by
    obtain ⟨he, hr⟩ := List.forall_mem_append.mp h
    rw [checkAllIn, checkAllIn, typeIn_congr he, checkAllIn_congr hr]

theorem checkKeysIn_congr : ∀ {ks : List (SortKey Expr)},
    (∀ c ∈ columnsOfKeys ks, w.typeOf c.name = s.typeOf c.name) →
      checkKeysIn w ks = checkKeysIn s ks
  | [], _ => rfl
  | ⟨e, _, _⟩ :: r, h => by
    obtain ⟨he, hr⟩ := List.forall_mem_append.mp h
    rw [checkKeysIn, checkKeysIn, typeIn_congr he, checkKeysIn_congr hr]

end

/-! ### Values -/

/-- A column that is resolved reads the column of its name. -/
theorem typeOf_of_resolve_column {table : Option TableRef} {name : String} {x : RowExpr}
    (h : (column table name).resolve (Scope.single s) = .ok x) :
    s.typeOf name = .ok x.type ∧ ∀ row, x.eval row = .ok (s.valueAt row name) := by
  cases ht : s.type? name with
  | none => cases table <;> simp [resolve, Scope.resolve?, Scope.single, Scope.find?, ht] at h
  | some t =>
    obtain ⟨y, hy, rfl, heval⟩ := resolve_column_eval table (Schema.typeOf_eq_ok_iff.mpr ht)
    obtain rfl : y = x := Except.ok.inj (hy.symm.trans h)
    exact ⟨Schema.typeOf_eq_ok_iff.mpr ht, heval⟩

mutual

/-- **The value of an expression** is settled by those of the columns that it reads. -/
theorem resolve_congr : ∀ {e : Expr} {x : RowExpr},
    (∀ c ∈ e.columns, w.typeOf c.name = s.typeOf c.name) → e.resolve (Scope.single s) = .ok x →
    ∃ y, e.resolve (Scope.single w) = .ok y ∧ y.type = x.type ∧
      ∀ r q, (∀ c ∈ e.columns, w.valueAt q c.name = s.valueAt r c.name) → y.eval q = x.eval r
  | .column table name, x, h, hx => by
    obtain ⟨ht, hxv⟩ := typeOf_of_resolve_column hx
    obtain ⟨y, hy, hyt, hyv⟩ := resolve_column_eval table ((h _ List.mem_cons_self).trans ht)
    exact ⟨y, hy, hyt, fun r q hrow => by rw [hyv, hxv, hrow _ List.mem_cons_self]⟩
  | .literal v, x, _, hx => ⟨.literal v, rfl, by cases hx; rfl, fun _ _ _ => by cases hx; rfl⟩
  | .arith op a b, x, h, hx => by
    simp only [resolve, Result.bind_eq_ok_iff] at hx
    obtain ⟨xa, hxa, xb, hxb, t, ht, hx⟩ := hx
    cases hx
    obtain ⟨ha, hb⟩ := List.forall_mem_append.mp h
    obtain ⟨ya, hya, hyat, hyav⟩ := resolve_congr ha hxa
    obtain ⟨yb, hyb, hybt, hybv⟩ := resolve_congr hb hxb
    refine ⟨.arith op ya yb t, ?_, rfl, fun r q hrow => ?_⟩
    · rw [resolve, hya, Result.ok_bind, hyb, Result.ok_bind, hyat, hybt, ht]
      rfl
    · obtain ⟨hra, hrb⟩ := List.forall_mem_append.mp hrow
      rw [RowExpr.eval, RowExpr.eval, hyav r q hra, hybv r q hrb]
  | .compare op a b, x, h, hx => by
    simp only [resolve, Result.bind_eq_ok_iff] at hx
    obtain ⟨xa, hxa, xb, hxb, t, ht, hx⟩ := hx
    cases hx
    obtain ⟨ha, hb⟩ := List.forall_mem_append.mp h
    obtain ⟨ya, hya, hyat, hyav⟩ := resolve_congr ha hxa
    obtain ⟨yb, hyb, hybt, hybv⟩ := resolve_congr hb hxb
    refine ⟨.compare op ya yb t, ?_, rfl, fun r q hrow => ?_⟩
    · rw [resolve, hya, Result.ok_bind, hyb, Result.ok_bind, hyat, hybt, ht]
      rfl
    · obtain ⟨hra, hrb⟩ := List.forall_mem_append.mp hrow
      rw [RowExpr.eval, RowExpr.eval, hyav r q hra, hybv r q hrb]
  | .conj op es, x, h, hx => by
    simp only [resolve, Result.bind_eq_ok_iff] at hx
    obtain ⟨xs, hxs, hx⟩ := hx
    cases hx
    obtain ⟨ys, hys, hyst, hysv⟩ := resolveAll_congr h hxs
    refine ⟨.conj op ys _, by rw [resolve, hys]; rfl, ?_, fun r q hrow => ?_⟩
    · have hany := congrArg (List.any · DataType.nullable) hyst
      simp only [List.any_map] at hany
      exact congrArg (DataType.base .boolean) hany
    · rw [RowExpr.eval, RowExpr.eval, hysv r q hrow]
  | .unary op e, x, h, hx => by
    simp only [resolve, Result.bind_eq_ok_iff] at hx
    obtain ⟨xe, hxe, t, ht, hx⟩ := hx
    cases hx
    obtain ⟨ye, hye, hyet, hyev⟩ := resolve_congr (e := e) h hxe
    refine ⟨.unary op ye t, ?_, rfl, fun r q hrow => ?_⟩
    · rw [resolve, hye, Result.ok_bind, hyet, ht]
      rfl
    · rw [RowExpr.eval, RowExpr.eval, hyev r q hrow]
  | .aggregate _ _, _, _, hx => by cases hx
  | .window _ _ _ _, _, _, hx => by cases hx
  | .aliased _ e, x, h, hx => resolve_congr (e := e) h hx

theorem resolveAll_congr : ∀ {es : List Expr} {xs : List RowExpr},
    (∀ c ∈ columnsOfAll es, w.typeOf c.name = s.typeOf c.name) →
    resolveAll (Scope.single s) es = .ok xs →
    ∃ ys, resolveAll (Scope.single w) es = .ok ys ∧ ys.map RowExpr.type = xs.map RowExpr.type ∧
      ∀ r q, (∀ c ∈ columnsOfAll es, w.valueAt q c.name = s.valueAt r c.name) →
        RowExpr.evalAll q ys = RowExpr.evalAll r xs
  | [], xs, _, hx => by
    cases hx
    exact ⟨[], rfl, rfl, fun _ _ _ => rfl⟩
  | e :: r, xs, h, hx => by
    simp only [resolveAll, Result.bind_eq_ok_iff] at hx
    obtain ⟨x, hxe, xr, hxr, hx⟩ := hx
    cases hx
    obtain ⟨he, hr⟩ := List.forall_mem_append.mp h
    obtain ⟨y, hy, hyt, hyv⟩ := resolve_congr he hxe
    obtain ⟨ys, hys, hyst, hysv⟩ := resolveAll_congr hr hxr
    refine ⟨y :: ys, ?_, by rw [List.map_cons, List.map_cons, hyt, hyst], fun row q hrow => ?_⟩
    · rw [resolveAll, hy, Result.ok_bind, hys]
      rfl
    · obtain ⟨hre, hrr⟩ := List.forall_mem_append.mp hrow
      rw [RowExpr.evalAll, RowExpr.evalAll, hyv row q hre, hysv row q hrr]

end

/-! ### Columns that are replaced -/

/-- **The columns of what stands in for some columns**, in their order. -/
def Replaces (f : ColumnRef → Result Expr) (cs ds : List ColumnRef) : Prop :=
  ∃ ps, cs.mapM f = .ok ps ∧ ds = ps.flatMap columns

variable {f : ColumnRef → Result Expr}

theorem Replaces.nil : Replaces f [] [] := ⟨[], rfl, rfl⟩

theorem Replaces.append {cs cs' ds ds' : List ColumnRef} (h : Replaces f cs ds)
    (h' : Replaces f cs' ds') : Replaces f (cs ++ cs') (ds ++ ds') := by
  obtain ⟨ps, hps, rfl⟩ := h
  obtain ⟨ps', hps', rfl⟩ := h'
  refine ⟨ps ++ ps', ?_, List.flatMap_append.symm⟩
  rw [List.mapM_append, hps, Result.ok_bind, hps']
  rfl

/-- Every column that is read comes from what stands in for one. -/
theorem Replaces.exists_of_mem {cs ds : List ColumnRef} (h : Replaces f cs ds) {d : ColumnRef}
    (hd : d ∈ ds) : ∃ c ∈ cs, ∃ p, f c = .ok p ∧ d ∈ p.columns := by
  obtain ⟨ps, hps, rfl⟩ := h
  obtain ⟨p, hp, hdp⟩ := List.mem_flatMap.mp hd
  obtain ⟨c, hc, hcp⟩ := Result.exists_of_mem_mapM hps p hp
  exact ⟨c, hc, p, hcp, hdp⟩

mutual

/-- **An expression with its columns replaced** reads what stands in for them. -/
theorem replaces_of_mapColumnsM : ∀ {e q : Expr}, e.mapColumnsM f = .ok q →
    Replaces f e.columns q.columns
  | .column table name, q, h => by
    rw [mapColumnsM] at h
    refine ⟨[q], ?_, (List.append_nil _).symm⟩
    rw [columns, List.mapM_cons, h]
    rfl
  | .literal _, q, h => by
    cases h
    exact .nil
  | .arith _ a b, q, h => by
    obtain ⟨x, hx, h⟩ := Result.bind_eq_ok_iff.mp h
    obtain ⟨y, hy, h⟩ := Result.bind_eq_ok_iff.mp h
    cases h
    exact (replaces_of_mapColumnsM hx).append (replaces_of_mapColumnsM hy)
  | .compare _ a b, q, h => by
    obtain ⟨x, hx, h⟩ := Result.bind_eq_ok_iff.mp h
    obtain ⟨y, hy, h⟩ := Result.bind_eq_ok_iff.mp h
    cases h
    exact (replaces_of_mapColumnsM hx).append (replaces_of_mapColumnsM hy)
  | .conj _ es, q, h => by
    obtain ⟨xs, hxs, h⟩ := Result.bind_eq_ok_iff.mp h
    cases h
    exact replaces_of_mapColumnsOfAllM hxs
  | .unary _ e, q, h => by
    obtain ⟨x, hx, h⟩ := Result.bind_eq_ok_iff.mp h
    cases h
    exact replaces_of_mapColumnsM (e := e) (q := x) hx
  | .aggregate _ input, q, h => by
    obtain ⟨x, hx, h⟩ := Result.bind_eq_ok_iff.mp h
    cases h
    exact replaces_of_mapColumnsOfInputM hx
  | .window _ input ps ks, q, h => by
    obtain ⟨x, hx, h⟩ := Result.bind_eq_ok_iff.mp h
    obtain ⟨xs, hxs, h⟩ := Result.bind_eq_ok_iff.mp h
    obtain ⟨xks, hxks, h⟩ := Result.bind_eq_ok_iff.mp h
    cases h
    exact ((replaces_of_mapColumnsOfInputM hx).append (replaces_of_mapColumnsOfAllM hxs)).append
      (replaces_of_mapColumnsOfKeysM hxks)
  | .aliased _ e, q, h => by
    obtain ⟨x, hx, h⟩ := Result.bind_eq_ok_iff.mp h
    cases h
    exact replaces_of_mapColumnsM (e := e) (q := x) hx

theorem replaces_of_mapColumnsOfInputM : ∀ {input q : Option Expr},
    mapColumnsOfInputM f input = .ok q → Replaces f (columnsOfInput input) (columnsOfInput q)
  | none, q, h => by
    cases h
    exact .nil
  | some e, q, h => by
    obtain ⟨x, hx, h⟩ := Result.bind_eq_ok_iff.mp h
    cases h
    exact replaces_of_mapColumnsM hx

theorem replaces_of_mapColumnsOfAllM : ∀ {es qs : List Expr},
    mapColumnsOfAllM f es = .ok qs → Replaces f (columnsOfAll es) (columnsOfAll qs)
  | [], q, h => by
    cases h
    exact .nil
  | e :: r, q, h => by
    obtain ⟨x, hx, h⟩ := Result.bind_eq_ok_iff.mp h
    obtain ⟨xs, hxs, h⟩ := Result.bind_eq_ok_iff.mp h
    cases h
    exact (replaces_of_mapColumnsM hx).append (replaces_of_mapColumnsOfAllM hxs)

theorem replaces_of_mapColumnsOfKeysM : ∀ {ks qs : List (SortKey Expr)},
    mapColumnsOfKeysM f ks = .ok qs → Replaces f (columnsOfKeys ks) (columnsOfKeys qs)
  | [], q, h => by
    cases h
    exact .nil
  | ⟨e, _, _⟩ :: r, q, h => by
    obtain ⟨x, hx, h⟩ := Result.bind_eq_ok_iff.mp h
    obtain ⟨xs, hxs, h⟩ := Result.bind_eq_ok_iff.mp h
    cases h
    exact (replaces_of_mapColumnsM hx).append (replaces_of_mapColumnsOfKeysM hxs)

end

end Expr

/-! ### Sort keys -/

namespace SortKey

variable {s w : Schema}

/-- **Sort keys** that are resolved over a schema are resolved over one in which the columns that
they read have the same types. They order values in the same way, and have the same values on rows
on which these columns have. -/
theorem resolveAll_congr : ∀ {keys : List (SortKey Expr)} {xs : List (SortKey RowExpr)},
    (∀ k ∈ keys, ∀ c ∈ k.expr.columns, w.typeOf c.name = s.typeOf c.name) →
    resolveAll (Scope.single s) keys = .ok xs →
    ∃ ys, resolveAll (Scope.single w) keys = .ok ys ∧
      (∀ vs us, orderAll ys vs us = orderAll xs vs us) ∧
      ∀ r q, (∀ k ∈ keys, ∀ c ∈ k.expr.columns, w.valueAt q c.name = s.valueAt r c.name) →
        evalAll ys q = evalAll xs r
  | [], xs, _, hx => by
    cases hx
    exact ⟨[], rfl, fun _ _ => rfl, fun _ _ _ => rfl⟩
  | k :: keys, xs, h, hx => by
    simp only [resolveAll, List.mapM_cons, Result.bind_eq_ok_iff] at hx
    obtain ⟨_, ⟨x, hxk, hk⟩, xr, hxr, hx⟩ := hx
    cases hk
    cases hx
    obtain ⟨hk, hkeys⟩ := List.forall_mem_cons.mp h
    obtain ⟨y, hy, -, hyv⟩ := Expr.resolve_congr hk hxk
    obtain ⟨ys, hys, horder, hysv⟩ := resolveAll_congr hkeys hxr
    refine ⟨⟨y, k.descending, k.nullsFirst⟩ :: ys, ?_, fun vs us => ?_, fun r q hrow => ?_⟩
    · rw [resolveAll, List.mapM_cons, hy, ← resolveAll, hys]
      rfl
    · cases vs with
      | nil => rfl
      | cons v vs =>
        cases us with
        | nil => rfl
        | cons u us =>
          rw [orderAll, orderAll, horder]
          rfl
    · obtain ⟨hrk, hrkeys⟩ := List.forall_mem_cons.mp hrow
      rw [evalAll, evalAll, List.mapM_cons, List.mapM_cons, hyv r q hrk, ← evalAll, ← evalAll,
        hysv r q hrkeys]

end SortKey

end TableQuery
