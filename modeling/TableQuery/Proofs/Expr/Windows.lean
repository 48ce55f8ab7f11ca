import TableQuery.Operator.Lower
import TableQuery.Proofs.Expr.Resolution
import TableQuery.Proofs.Join.Predicate

/-! # Expressions with their windows taken out

Lowering takes the windows out of expressions while it counts names. Here the same is said without a
state: `Expr.windows` lists the outermost windows in the order of the text, and `Expr.withColumns n`
has columns in their places, which are numbered from `n` on (`NamedWindow.takeFrom_eq`).

`Expr.valueOver` is the value of an expression with windows on one of some rows. An expression with
columns in the places of its windows keeps its type, and has this value on a row that has the values
of the windows in these columns (`resolve_withColumns`). -/

namespace TableQuery

/-- A window as an expression has it. -/
structure WindowCall where
  function : WindowFunction
  input : Option Expr
  partitionBy : List Expr
  orderBy : List (SortKey Expr)

namespace WindowCall

def expr (w : WindowCall) : Expr := .window w.function w.input w.partitionBy w.orderBy

/-- The window for which the column of a number stands. -/
def named (w : WindowCall) (n : Nat) : NamedWindow :=
  ⟨NamedWindow.columnName n, w.function, w.input, w.partitionBy, w.orderBy⟩

/-- Windows for which columns stand that are numbered from `n` on. -/
def nameFrom (n : Nat) (windows : List WindowCall) : List NamedWindow :=
  (windows.zipIdx n).map fun p => p.1.named p.2

@[simp] theorem nameFrom_nil (n : Nat) : nameFrom n [] = [] := rfl

theorem nameFrom_append (n : Nat) (xs ys : List WindowCall) :
    nameFrom n (xs ++ ys) = nameFrom n xs ++ nameFrom (n + xs.length) ys := by
  rw [nameFrom, List.zipIdx_append, List.map_append, nameFrom, nameFrom, Nat.add_comm]

end WindowCall

namespace Expr

mutual

/-- The outermost windows, in the order of the text. -/
def windows : Expr → List WindowCall
  | .column _ _ => []
  | .literal _ => []
  | .arith _ a b => windows a ++ windows b
  | .compare _ a b => windows a ++ windows b
  | .conj _ es => windowsOfAll es
  | .unary _ e => windows e
  | .aggregate _ none => []
  | .aggregate _ (some e) => windows e
  | .window f input ps ks => [⟨f, input, ps, ks⟩]
  | .aliased _ e => windows e

def windowsOfAll : List Expr → List WindowCall
  | [] => []
  | e :: r => windows e ++ windowsOfAll r

end

mutual

/-- The expression with columns in place of its outermost windows, numbered from `n` on. -/
def withColumns (n : Nat) : Expr → Expr
  | .column table name => .column table name
  | .literal v => .literal v
  | .arith op a b => .arith op (withColumns n a) (withColumns (n + a.windows.length) b)
  | .compare op a b => .compare op (withColumns n a) (withColumns (n + a.windows.length) b)
  | .conj op es => .conj op (withColumnsAll n es)
  | .unary op e => .unary op (withColumns n e)
  | .aggregate f none => .aggregate f none
  | .aggregate f (some e) => .aggregate f (some (withColumns n e))
  | .window _ _ _ _ => .col (NamedWindow.columnName n)
  | .aliased name e => .aliased name (withColumns n e)

def withColumnsAll (n : Nat) : List Expr → List Expr
  | [] => []
  | e :: r => withColumns n e :: withColumnsAll (n + e.windows.length) r

end

/-! ### Taking windows out -/

open NamedWindow (take Taking)

/-- One step of taking windows out, from what it gives. -/
theorem run_bind_taking {α β : Type} {x : Taking α} {f : α → Taking β}
    {s s' : Nat × List NamedWindow} {a : α} (h : x.run s = (a, s')) :
    (x >>= f).run s = (f a).run s' := by
  rw [StateT.run_bind, h]
  rfl

mutual

/-- **Taking windows out** puts columns in their places and adds them to those taken before. -/
theorem run_mapWindowsM_take : ∀ (e : Expr) (n : Nat) (ws : List NamedWindow),
    (mapWindowsM take e : Taking Expr).run (n, ws) =
      (e.withColumns n, n + e.windows.length, ws ++ WindowCall.nameFrom n e.windows)
  | .column _ _, n, ws => by rw [windows, WindowCall.nameFrom_nil, List.append_nil]; rfl
  | .literal _, n, ws => by rw [windows, WindowCall.nameFrom_nil, List.append_nil]; rfl
  | .arith op a b, n, ws => by
    rw [mapWindowsM, run_bind_taking (run_mapWindowsM_take a n ws),
      run_bind_taking (run_mapWindowsM_take b _ _), windows, List.length_append,
      WindowCall.nameFrom_append, ← Nat.add_assoc, ← List.append_assoc]
    rfl
  | .compare op a b, n, ws => by
    rw [mapWindowsM, run_bind_taking (run_mapWindowsM_take a n ws),
      run_bind_taking (run_mapWindowsM_take b _ _), windows, List.length_append,
      WindowCall.nameFrom_append, ← Nat.add_assoc, ← List.append_assoc]
    rfl
  | .conj op es, n, ws => by
    rw [mapWindowsM, run_bind_taking (run_mapWindowsOfAllM_take es n ws)]
    rfl
  | .unary op e, n, ws => by
    rw [mapWindowsM, run_bind_taking (run_mapWindowsM_take e n ws)]
    rfl
  | .aggregate f none, n, ws => by rw [windows, WindowCall.nameFrom_nil, List.append_nil]; rfl
  | .aggregate f (some e), n, ws => by
    rw [mapWindowsM, run_bind_taking (run_mapWindowsM_take e n ws)]
    rfl
  | .window f input ps ks, n, ws => rfl
  | .aliased name e, n, ws => by
    rw [mapWindowsM, run_bind_taking (run_mapWindowsM_take e n ws)]
    rfl

theorem run_mapWindowsOfAllM_take : ∀ (es : List Expr) (n : Nat) (ws : List NamedWindow),
    (mapWindowsOfAllM take es : Taking (List Expr)).run (n, ws) =
      (withColumnsAll n es, n + (windowsOfAll es).length,
        ws ++ WindowCall.nameFrom n (windowsOfAll es))
  | [], n, ws => by rw [windowsOfAll, WindowCall.nameFrom_nil, List.append_nil]; rfl
  | e :: r, n, ws => by
    rw [mapWindowsOfAllM, run_bind_taking (run_mapWindowsM_take e n ws),
      run_bind_taking (run_mapWindowsOfAllM_take r _ _), windowsOfAll, List.length_append,
      WindowCall.nameFrom_append, ← Nat.add_assoc, ← List.append_assoc]
    rfl

end

theorem mapM_mapWindowsM {m : Type → Type} [Monad m] [LawfulMonad m]
    (f : WindowFunction → Option Expr → List Expr → List (SortKey Expr) → m Expr)
    (es : List Expr) : es.mapM (mapWindowsM f) = mapWindowsOfAllM f es := by
  induction es with
  | nil => rw [mapWindowsOfAllM, List.mapM_nil]
  | cons e r ih => rw [mapWindowsOfAllM, List.mapM_cons, ih]

end Expr

/-- **The windows of a projection** are taken out in the order of the text. -/
theorem NamedWindow.takeFrom_eq (exprs : List Expr) (n : Nat) :
    takeFrom exprs n = .ok ((Expr.withColumnsAll n exprs,
      WindowCall.nameFrom n (Expr.windowsOfAll exprs)), n + (Expr.windowsOfAll exprs).length) := by
  have hrun := Expr.run_mapWindowsOfAllM_take exprs n []
  rw [← Expr.mapM_mapWindowsM] at hrun
  have htake : takeFrom exprs n =
      (fun p : List Expr × Nat × List NamedWindow => Except.ok ((p.1, p.2.2), p.2.1))
        ((exprs.mapM (Expr.mapWindowsM take) : Taking _).run (n, [])) := rfl
  rw [htake, hrun]
  rfl

/-! ### Values over all rows -/

/-- The value of a window on the row at a place, over rows laid out as a schema. -/
def WindowCall.valueOver (w : WindowCall) (schema : Schema) (rows : List Row) (i : Nat) :
    Result Scalar := do
  let window ← (w.named 0).resolve (Scope.single schema)
  let values ← window.values rows
  return values.getD i .null

/-- All columns of the schema are columns of another. -/
def Schema.ColumnsIn (s w : Schema) : Prop :=
  ∀ name t, s.typeOf name = .ok t → w.typeOf name = .ok t

namespace Expr

mutual

/-- **The value of an expression with windows** on one of some rows, which is given with its place:
every window stands for the value that it gives this row over all rows. -/
def valueOver (schema : Schema) (rows : List Row) (p : Row × Nat) : Expr → Result Scalar
  | .column _ name => .ok (schema.valueAt p.1 name)
  | .literal v => .ok v
  | .arith op a b => do
    let x ← valueOver schema rows p a
    let y ← valueOver schema rows p b
    let t ← (arith op a b).typeIn schema
    x.arith op y t
  | .compare op a b => do
    let x ← valueOver schema rows p a
    let y ← valueOver schema rows p b
    return x.compareBy op y
  | .conj op es => do Scalar.connect op (← valuesOver schema rows p es)
  | .unary op e => do Scalar.applyUnary op (← valueOver schema rows p e)
  | .aggregate f input => .error (.typing (.notScalar (.aggregate f input)))
  | .window f input ps ks => WindowCall.valueOver ⟨f, input, ps, ks⟩ schema rows p.2
  | .aliased _ e => valueOver schema rows p e

def valuesOver (schema : Schema) (rows : List Row) (p : Row × Nat) :
    List Expr → Result (List Scalar)
  | [] => .ok []
  | e :: r => do
    let v ← valueOver schema rows p e
    let vs ← valuesOver schema rows p r
    return v :: vs

end

/-! ### Columns in the places of windows -/

/-- A column is read where its name stands. -/
theorem resolve_column_eval {schema : Schema} (table : Option TableRef) {name : String}
    {t : DataType} (h : schema.typeOf name = .ok t) :
    ∃ x, (column table name).resolve (Scope.single schema) = .ok x ∧ x.type = t ∧
      ∀ row, x.eval row = .ok (schema.valueAt row name) := by
  have ht := Schema.typeOf_eq_ok_iff.mp h
  obtain ⟨i, hi, -⟩ := Schema.index?_of_type? ht
  refine ⟨.column i t, by rw [resolve, resolve?_single table hi ht], rfl, fun row => ?_⟩
  rw [RowExpr.eval, Schema.valueAt, hi]

section

variable {s w : Schema}

/-- The windows have columns of their types in another schema, numbered from `n` on. -/
def TypedIn (s w : Schema) (n : Nat) (windows : List WindowCall) : Prop :=
  ∀ p ∈ windows.zipIdx n, w.typeOf (NamedWindow.columnName p.2) = p.1.expr.typeIn s

/-- A row has the values of the windows in these columns. -/
def ValuedIn (s w : Schema) (rows : List Row) (p : Row × Nat) (row : Row) (n : Nat)
    (windows : List WindowCall) : Prop :=
  ∀ q ∈ windows.zipIdx n,
    q.1.valueOver s rows p.2 = .ok (w.valueAt row (NamedWindow.columnName q.2))

theorem typedIn_append {n : Nat} {xs ys : List WindowCall} :
    TypedIn s w n (xs ++ ys) ↔ TypedIn s w n xs ∧ TypedIn s w (n + xs.length) ys := by
  rw [TypedIn, List.zipIdx_append, List.forall_mem_append]
  rfl

theorem valuedIn_append {rows : List Row} {p : Row × Nat} {row : Row} {n : Nat}
    {xs ys : List WindowCall} : ValuedIn s w rows p row n (xs ++ ys) ↔
      ValuedIn s w rows p row n xs ∧ ValuedIn s w rows p row (n + xs.length) ys := by
  rw [ValuedIn, List.zipIdx_append, List.forall_mem_append]
  rfl

theorem types_of_nullableOperandsIn {op : Connective} {es : List Expr} {m : Bool}
    (h : nullableOperandsIn s op es = .ok m) :
    ∃ ts, es.mapM (typeIn s) = .ok ts ∧ ts.any DataType.nullable = m := by
  induction es generalizing m with
  | nil =>
    cases h
    exact ⟨[], rfl, rfl⟩
  | cons e r ih =>
    simp only [nullableOperandsIn, Result.bind_eq_ok_iff] at h
    obtain ⟨t, ht, h⟩ := h
    split at h
    · cases h
    · obtain ⟨l, hl, hm⟩ := Result.bind_eq_ok_iff.mp h
      cases hm
      obtain ⟨ts, hts, rfl⟩ := ih hl
      exact ⟨t :: ts, by rw [List.mapM_cons, ht, Result.ok_bind, hts]; rfl, rfl⟩

mutual

/-- **Columns in the places of windows**: the expression keeps its type, and it has the same value
on a row that has the values of the windows in these columns. -/
theorem resolve_withColumns (hext : s.ColumnsIn w) : ∀ {e : Expr} {t : DataType} {n : Nat},
    e.hasAggregate = false → e.typeIn s = .ok t → TypedIn s w n e.windows →
    ∃ x, (e.withColumns n).resolve (Scope.single w) = .ok x ∧ x.type = t ∧
      ∀ rows p row, (∀ name t, s.typeOf name = .ok t → w.valueAt row name = s.valueAt p.1 name) →
        ValuedIn s w rows p row n e.windows → x.eval row = e.valueOver s rows p
  | .column table name, t, n, _, h, _ => by
    obtain ⟨x, hx, hxt, heval⟩ := resolve_column_eval table (hext name t h)
    exact ⟨x, hx, hxt, fun rows p row hrow _ => by rw [heval, hrow name t h]; rfl⟩
  | .literal v, t, n, _, h, _ => by
    cases h
    exact ⟨.literal v, rfl, rfl, fun _ _ _ _ _ => rfl⟩
  | .arith op a b, t, n, ha, h, hw => by
    have htype := h
    simp only [typeIn, Result.bind_eq_ok_iff] at h
    obtain ⟨ta, hta, tb, htb, hop⟩ := h
    obtain ⟨haa, hab⟩ := Bool.or_eq_false_iff.mp ha
    obtain ⟨hwa, hwb⟩ := typedIn_append.mp hw
    obtain ⟨x, hx, rfl, hxv⟩ := resolve_withColumns hext haa hta hwa
    obtain ⟨y, hy, rfl, hyv⟩ := resolve_withColumns hext hab htb hwb
    refine ⟨.arith op x y t, ?_, rfl, fun rows p row hrow hv => ?_⟩
    · rw [withColumns, resolve, hx, Result.ok_bind, hy, Result.ok_bind, hop]
      rfl
    · obtain ⟨hva, hvb⟩ := valuedIn_append.mp hv
      rw [RowExpr.eval, hxv rows p row hrow hva, hyv rows p row hrow hvb, valueOver, htype]
      rfl
  | .compare op a b, t, n, ha, h, hw => by
    simp only [typeIn, Result.bind_eq_ok_iff] at h
    obtain ⟨ta, hta, tb, htb, hop⟩ := h
    obtain ⟨haa, hab⟩ := Bool.or_eq_false_iff.mp ha
    obtain ⟨hwa, hwb⟩ := typedIn_append.mp hw
    obtain ⟨x, hx, rfl, hxv⟩ := resolve_withColumns hext haa hta hwa
    obtain ⟨y, hy, rfl, hyv⟩ := resolve_withColumns hext hab htb hwb
    refine ⟨.compare op x y t, ?_, rfl, fun rows p row hrow hv => ?_⟩
    · rw [withColumns, resolve, hx, Result.ok_bind, hy, Result.ok_bind, hop]
      rfl
    · obtain ⟨hva, hvb⟩ := valuedIn_append.mp hv
      rw [RowExpr.eval, hxv rows p row hrow hva, hyv rows p row hrow hvb, valueOver]
  | .conj op es, t, n, ha, h, hw => by
    simp only [typeIn, Result.bind_eq_ok_iff] at h
    obtain ⟨m, hm, ht⟩ := h
    cases ht
    obtain ⟨ts, hts, rfl⟩ := types_of_nullableOperandsIn hm
    obtain ⟨xs, hxs, rfl, hxv⟩ := resolveAll_withColumnsAll hext ha hts hw
    refine ⟨.conj op xs _, ?_, rfl, fun rows p row hrow hv => ?_⟩
    · rw [withColumns, resolve, hxs, List.any_map]
      rfl
    · rw [RowExpr.eval, hxv rows p row hrow hv, valueOver]
  | .unary op e, t, n, ha, h, hw => by
    simp only [typeIn, Result.bind_eq_ok_iff] at h
    obtain ⟨te, hte, hop⟩ := h
    obtain ⟨x, hx, rfl, hxv⟩ := resolve_withColumns hext (e := e) ha hte hw
    refine ⟨.unary op x t, ?_, rfl, fun rows p row hrow hv => ?_⟩
    · rw [withColumns, resolve, hx, Result.ok_bind, hop]
      rfl
    · rw [RowExpr.eval, hxv rows p row hrow hv, valueOver]
  | .aggregate _ _, _, _, ha, _, _ => by cases ha
  | .window f input ps ks, t, n, _, h, hw => by
    have hcolumn := hw (⟨f, input, ps, ks⟩, n) (by simp [windows])
    obtain ⟨x, hx, hxt, heval⟩ := resolve_column_eval none (hcolumn.trans h)
    refine ⟨x, hx, hxt, fun rows p row _ hv => ?_⟩
    have hvalue := hv (⟨f, input, ps, ks⟩, n) (by simp [windows])
    rw [heval, valueOver, hvalue]
  | .aliased name e, t, n, ha, h, hw => resolve_withColumns hext (e := e) ha h hw

theorem resolveAll_withColumnsAll (hext : s.ColumnsIn w) : ∀ {es : List Expr}
    {ts : List DataType} {n : Nat}, hasAggregateAny es = false → es.mapM (typeIn s) = .ok ts →
    TypedIn s w n (windowsOfAll es) →
    ∃ xs, resolveAll (Scope.single w) (withColumnsAll n es) = .ok xs ∧ xs.map RowExpr.type = ts ∧
      ∀ rows p row, (∀ name t, s.typeOf name = .ok t → w.valueAt row name = s.valueAt p.1 name) →
        ValuedIn s w rows p row n (windowsOfAll es) →
        RowExpr.evalAll row xs = valuesOver s rows p es
  | [], ts, n, _, h, _ => by
    cases h
    exact ⟨[], rfl, rfl, fun _ _ _ _ _ => rfl⟩
  | e :: r, ts, n, ha, h, hw => by
    simp only [List.mapM_cons, Result.bind_eq_ok_iff] at h
    obtain ⟨te, hte, tr, htr, h⟩ := h
    cases h
    obtain ⟨hae, har⟩ := Bool.or_eq_false_iff.mp ha
    obtain ⟨hwe, hwr⟩ := typedIn_append.mp hw
    obtain ⟨x, hx, rfl, hxv⟩ := resolve_withColumns hext hae hte hwe
    obtain ⟨xs, hxs, rfl, hxsv⟩ := resolveAll_withColumnsAll hext har htr hwr
    refine ⟨x :: xs, ?_, rfl, fun rows p row hrow hv => ?_⟩
    · rw [withColumnsAll, resolveAll, hx, Result.ok_bind, hxs]
      rfl
    · obtain ⟨hve, hvr⟩ := valuedIn_append.mp hv
      rw [RowExpr.evalAll, hxv rows p row hrow hve, hxsv rows p row hrow hvr, valuesOver]

end

mutual

/-- The expression with columns in the places of windows has a type where the columns are. -/
theorem typeIn_withColumns (hext : s.ColumnsIn w) : ∀ {e : Expr} {t : DataType} {n : Nat},
    e.hasAggregate = false → e.typeIn s = .ok t → TypedIn s w n e.windows →
    (e.withColumns n).typeIn w = .ok t
  | .column table name, t, n, _, h, _ => hext name t h
  | .literal v, t, n, _, h, _ => h
  | .arith op a b, t, n, ha, h, hw => by
    simp only [typeIn, Result.bind_eq_ok_iff] at h
    obtain ⟨ta, hta, tb, htb, hop⟩ := h
    obtain ⟨haa, hab⟩ := Bool.or_eq_false_iff.mp ha
    obtain ⟨hwa, hwb⟩ := typedIn_append.mp hw
    rw [withColumns, typeIn, typeIn_withColumns hext haa hta hwa, Result.ok_bind,
      typeIn_withColumns hext hab htb hwb]
    exact hop
  | .compare op a b, t, n, ha, h, hw => by
    simp only [typeIn, Result.bind_eq_ok_iff] at h
    obtain ⟨ta, hta, tb, htb, hop⟩ := h
    obtain ⟨haa, hab⟩ := Bool.or_eq_false_iff.mp ha
    obtain ⟨hwa, hwb⟩ := typedIn_append.mp hw
    rw [withColumns, typeIn, typeIn_withColumns hext haa hta hwa, Result.ok_bind,
      typeIn_withColumns hext hab htb hwb]
    exact hop
  | .conj op es, t, n, ha, h, hw => by
    simp only [typeIn, Result.bind_eq_ok_iff] at h
    obtain ⟨m, hm, ht⟩ := h
    rw [withColumns, typeIn, nullableOperandsIn_withColumnsAll hext ha hm hw]
    exact ht
  | .unary op e, t, n, ha, h, hw => by
    simp only [typeIn, Result.bind_eq_ok_iff] at h
    obtain ⟨te, hte, hop⟩ := h
    rw [withColumns, typeIn, typeIn_withColumns hext (e := e) ha hte hw]
    exact hop
  | .aggregate _ _, _, _, ha, _, _ => by cases ha
  | .window f input ps ks, t, n, _, h, hw =>
    (hw (⟨f, input, ps, ks⟩, n) (by simp [windows])).trans h
  | .aliased name e, t, n, ha, h, hw => typeIn_withColumns hext (e := e) ha h hw

theorem nullableOperandsIn_withColumnsAll (hext : s.ColumnsIn w) {op : Connective} :
    ∀ {es : List Expr} {m : Bool} {n : Nat}, hasAggregateAny es = false →
      nullableOperandsIn s op es = .ok m → TypedIn s w n (windowsOfAll es) →
      nullableOperandsIn w op (withColumnsAll n es) = .ok m
  | [], m, n, _, h, _ => h
  | e :: r, m, n, ha, h, hw => by
    simp only [nullableOperandsIn, Result.bind_eq_ok_iff] at h
    obtain ⟨te, hte, h⟩ := h
    split at h
    · cases h
    · rename_i hbool
      obtain ⟨l, hl, hm⟩ := Result.bind_eq_ok_iff.mp h
      obtain ⟨hae, har⟩ := Bool.or_eq_false_iff.mp ha
      obtain ⟨hwe, hwr⟩ := typedIn_append.mp hw
      rw [withColumnsAll, nullableOperandsIn, typeIn_withColumns hext hae hte hwe, Result.ok_bind,
        if_neg hbool, nullableOperandsIn_withColumnsAll hext har hl hwr]
      exact hm

end

theorem mapM_typeIn_withColumnsAll (hext : s.ColumnsIn w) : ∀ {es : List Expr}
    {ts : List DataType} {n : Nat}, hasAggregateAny es = false → es.mapM (typeIn s) = .ok ts →
    TypedIn s w n (windowsOfAll es) → (withColumnsAll n es).mapM (typeIn w) = .ok ts
  | [], _, _, _, h, _ => h
  | e :: r, ts, n, ha, h, hw => by
    simp only [List.mapM_cons, Result.bind_eq_ok_iff] at h
    obtain ⟨te, hte, tr, htr, hts⟩ := h
    obtain ⟨hae, har⟩ := Bool.or_eq_false_iff.mp ha
    obtain ⟨hwe, hwr⟩ := typedIn_append.mp hw
    rw [withColumnsAll, List.mapM_cons, typeIn_withColumns hext hae hte hwe, Result.ok_bind,
      mapM_typeIn_withColumnsAll hext har htr hwr]
    exact hts

end

/-! ### Types and values of the windows of an expression -/

mutual

/-- The windows of an expression that has a type have types. -/
theorem exists_type_of_mem_windows {s : Schema} : ∀ {e : Expr} {t : DataType},
    e.typeIn s = .ok t → ∀ c ∈ e.windows, ∃ u, c.expr.typeIn s = .ok u
  | .column _ _, _, _, _, hc => nomatch hc
  | .literal _, _, _, _, hc => nomatch hc
  | .arith op a b, t, h, c, hc => by
    simp only [typeIn, Result.bind_eq_ok_iff] at h
    obtain ⟨ta, ha, tb, hb, -⟩ := h
    exact (List.mem_append.mp hc).elim (exists_type_of_mem_windows ha c)
      (exists_type_of_mem_windows hb c)
  | .compare op a b, t, h, c, hc => by
    simp only [typeIn, Result.bind_eq_ok_iff] at h
    obtain ⟨ta, ha, tb, hb, -⟩ := h
    exact (List.mem_append.mp hc).elim (exists_type_of_mem_windows ha c)
      (exists_type_of_mem_windows hb c)
  | .conj op es, t, h, c, hc => by
    simp only [typeIn, Result.bind_eq_ok_iff] at h
    obtain ⟨m, hm, -⟩ := h
    obtain ⟨ts, hts, -⟩ := types_of_nullableOperandsIn hm
    exact exists_type_of_mem_windowsOfAll hts c hc
  | .unary op e, t, h, c, hc => by
    simp only [typeIn, Result.bind_eq_ok_iff] at h
    obtain ⟨te, hte, -⟩ := h
    exact exists_type_of_mem_windows (e := e) hte c hc
  | .aggregate _ none, _, _, _, hc => nomatch hc
  | .aggregate f (some e), t, h, c, hc => by
    simp only [typeIn, aggregateType] at h
    split at h
    · cases h
    · obtain ⟨te, hte, -⟩ := Result.bind_eq_ok_iff.mp h
      exact exists_type_of_mem_windows (e := e) hte c hc
  | .window f input ps ks, t, h, c, hc => by
    rw [List.mem_singleton.mp hc]
    exact ⟨t, h⟩
  | .aliased name e, t, h, c, hc => exists_type_of_mem_windows (e := e) h c hc

theorem exists_type_of_mem_windowsOfAll {s : Schema} : ∀ {es : List Expr} {ts : List DataType},
    es.mapM (typeIn s) = .ok ts → ∀ c ∈ windowsOfAll es, ∃ u, c.expr.typeIn s = .ok u
  | [], _, _, _, hc => nomatch hc
  | e :: r, ts, h, c, hc => by
    simp only [List.mapM_cons, Result.bind_eq_ok_iff] at h
    obtain ⟨te, hte, tr, htr, -⟩ := h
    exact (List.mem_append.mp hc).elim (exists_type_of_mem_windows hte c)
      (exists_type_of_mem_windowsOfAll htr c)

end

section

variable {s : Schema} {rows : List Row} {p : Row × Nat}

mutual

/-- Where an expression has a value, so has each of its windows. -/
theorem exists_valueOver_of_mem_windows : ∀ {e : Expr} {v : Scalar},
    e.valueOver s rows p = .ok v → ∀ c ∈ e.windows, ∃ u, c.valueOver s rows p.2 = .ok u
  | .column _ _, _, _, _, hc => nomatch hc
  | .literal _, _, _, _, hc => nomatch hc
  | .arith op a b, v, h, c, hc => by
    simp only [valueOver, Result.bind_eq_ok_iff] at h
    obtain ⟨x, hx, y, hy, -⟩ := h
    exact (List.mem_append.mp hc).elim (exists_valueOver_of_mem_windows hx c)
      (exists_valueOver_of_mem_windows hy c)
  | .compare op a b, v, h, c, hc => by
    simp only [valueOver, Result.bind_eq_ok_iff] at h
    obtain ⟨x, hx, y, hy, -⟩ := h
    exact (List.mem_append.mp hc).elim (exists_valueOver_of_mem_windows hx c)
      (exists_valueOver_of_mem_windows hy c)
  | .conj op es, v, h, c, hc => by
    simp only [valueOver, Result.bind_eq_ok_iff] at h
    obtain ⟨vs, hvs, -⟩ := h
    exact exists_valueOver_of_mem_windowsOfAll hvs c hc
  | .unary op e, v, h, c, hc => by
    simp only [valueOver, Result.bind_eq_ok_iff] at h
    obtain ⟨x, hx, -⟩ := h
    exact exists_valueOver_of_mem_windows (e := e) hx c hc
  | .aggregate _ _, _, h, _, _ => nomatch h
  | .window f input ps ks, v, h, c, hc => by
    rw [List.mem_singleton.mp hc]
    exact ⟨v, h⟩
  | .aliased _ e, v, h, c, hc => exists_valueOver_of_mem_windows (e := e) h c hc

theorem exists_valueOver_of_mem_windowsOfAll : ∀ {es : List Expr} {vs : List Scalar},
    valuesOver s rows p es = .ok vs →
      ∀ c ∈ windowsOfAll es, ∃ u, c.valueOver s rows p.2 = .ok u
  | [], _, _, _, hc => nomatch hc
  | e :: r, vs, h, c, hc => by
    simp only [valuesOver, Result.bind_eq_ok_iff] at h
    obtain ⟨v, hv, vs, hvs, -⟩ := h
    exact (List.mem_append.mp hc).elim (exists_valueOver_of_mem_windows hv c)
      (exists_valueOver_of_mem_windowsOfAll hvs c)

end

end

end Expr

end TableQuery
