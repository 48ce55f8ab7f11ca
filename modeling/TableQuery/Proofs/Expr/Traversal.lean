import TableQuery.Proofs.Expr.Columns

/-! # Columns read and columns replaced

Two traversals visit the columns of an expression: one lists them, the other puts an expression in
the place of each. They visit the same columns in the same order. Columns can be replaced if there
is something for each one that is listed (`exists_mapColumnsM`); what is put in their places is then
listed in theirs (`replaces_of_mapColumnsM`); and an expression whose columns stand in for
themselves is what it was (`mapColumnsM_itself`). -/

namespace TableQuery

namespace Expr

/-! ### What can be replaced -/

section Exists

variable {f : ColumnRef → Result Expr}

mutual

/-- **Columns can be replaced** if there is something for each column that the expression reads. -/
theorem exists_mapColumnsM : ∀ {e : Expr}, (∀ c ∈ e.columns, ∃ p, f c = .ok p) →
    ∃ q, e.mapColumnsM f = .ok q
  | .column _ _, h => h _ List.mem_cons_self
  | .literal v, _ => ⟨.literal v, rfl⟩
  | .arith op a b, h => by
    obtain ⟨ha, hb⟩ := List.forall_mem_append.mp h
    obtain ⟨x, hx⟩ := exists_mapColumnsM ha
    obtain ⟨y, hy⟩ := exists_mapColumnsM hb
    refine ⟨.arith op x y, ?_⟩
    rw [mapColumnsM, hx, Result.ok_bind, hy]
    rfl
  | .compare op a b, h => by
    obtain ⟨ha, hb⟩ := List.forall_mem_append.mp h
    obtain ⟨x, hx⟩ := exists_mapColumnsM ha
    obtain ⟨y, hy⟩ := exists_mapColumnsM hb
    refine ⟨.compare op x y, ?_⟩
    rw [mapColumnsM, hx, Result.ok_bind, hy]
    rfl
  | .conj op es, h => by
    obtain ⟨xs, hxs⟩ := exists_mapColumnsOfAllM h
    refine ⟨.conj op xs, ?_⟩
    rw [mapColumnsM, hxs]
    rfl
  | .unary op e, h => by
    obtain ⟨x, hx⟩ := exists_mapColumnsM (e := e) h
    refine ⟨.unary op x, ?_⟩
    rw [mapColumnsM, hx]
    rfl
  | .aggregate g input, h => by
    obtain ⟨x, hx⟩ := exists_mapColumnsOfInputM h
    refine ⟨.aggregate g x, ?_⟩
    rw [mapColumnsM, hx]
    rfl
  | .window g input ps ks, h => by
    obtain ⟨h, hks⟩ := List.forall_mem_append.mp h
    obtain ⟨hinput, hps⟩ := List.forall_mem_append.mp h
    obtain ⟨x, hx⟩ := exists_mapColumnsOfInputM hinput
    obtain ⟨xs, hxs⟩ := exists_mapColumnsOfAllM hps
    obtain ⟨xks, hxks⟩ := exists_mapColumnsOfKeysM hks
    refine ⟨.window g x xs xks, ?_⟩
    rw [mapColumnsM, hx, Result.ok_bind, hxs, Result.ok_bind, hxks]
    rfl
  | .aliased name e, h => by
    obtain ⟨x, hx⟩ := exists_mapColumnsM (e := e) h
    refine ⟨.aliased name x, ?_⟩
    rw [mapColumnsM, hx]
    rfl

theorem exists_mapColumnsOfInputM : ∀ {input : Option Expr},
    (∀ c ∈ columnsOfInput input, ∃ p, f c = .ok p) → ∃ q, mapColumnsOfInputM f input = .ok q
  | none, _ => ⟨none, rfl⟩
  | some e, h => by
    obtain ⟨x, hx⟩ := exists_mapColumnsM (e := e) h
    refine ⟨some x, ?_⟩
    rw [mapColumnsOfInputM, hx]
    rfl

theorem exists_mapColumnsOfAllM : ∀ {es : List Expr},
    (∀ c ∈ columnsOfAll es, ∃ p, f c = .ok p) → ∃ qs, mapColumnsOfAllM f es = .ok qs
  | [], _ => ⟨[], rfl⟩
  | e :: r, h => by
    obtain ⟨he, hr⟩ := List.forall_mem_append.mp h
    obtain ⟨x, hx⟩ := exists_mapColumnsM he
    obtain ⟨xs, hxs⟩ := exists_mapColumnsOfAllM hr
    refine ⟨x :: xs, ?_⟩
    rw [mapColumnsOfAllM, hx, Result.ok_bind, hxs]
    rfl

theorem exists_mapColumnsOfKeysM : ∀ {ks : List (SortKey Expr)},
    (∀ c ∈ columnsOfKeys ks, ∃ p, f c = .ok p) → ∃ qs, mapColumnsOfKeysM f ks = .ok qs
  | [], _ => ⟨[], rfl⟩
  | ⟨e, descending, nullsFirst⟩ :: r, h => by
    obtain ⟨he, hr⟩ := List.forall_mem_append.mp h
    obtain ⟨x, hx⟩ := exists_mapColumnsM he
    obtain ⟨xs, hxs⟩ := exists_mapColumnsOfKeysM hr
    refine ⟨⟨x, descending, nullsFirst⟩ :: xs, ?_⟩
    rw [mapColumnsOfKeysM, hx, Result.ok_bind, hxs]
    rfl

end

end Exists

/-! ### Columns in their own places -/

/-- Every column stands in for itself. -/
def itself (c : ColumnRef) : Result Expr := .ok (ofColumn c)

mutual

/-- **An expression whose columns stand in for themselves** is what it was. -/
theorem mapColumnsM_itself : ∀ e : Expr, e.mapColumnsM itself = .ok e
  | .column _ _ => rfl
  | .literal _ => rfl
  | .arith op a b => by
    rw [mapColumnsM, mapColumnsM_itself a, Result.ok_bind, mapColumnsM_itself b]
    rfl
  | .compare op a b => by
    rw [mapColumnsM, mapColumnsM_itself a, Result.ok_bind, mapColumnsM_itself b]
    rfl
  | .conj op es => by
    rw [mapColumnsM, mapColumnsOfAllM_itself es]
    rfl
  | .unary op e => by
    rw [mapColumnsM, mapColumnsM_itself e]
    rfl
  | .aggregate g input => by
    rw [mapColumnsM, mapColumnsOfInputM_itself input]
    rfl
  | .window g input ps ks => by
    rw [mapColumnsM, mapColumnsOfInputM_itself input, Result.ok_bind, mapColumnsOfAllM_itself ps,
      Result.ok_bind, mapColumnsOfKeysM_itself ks]
    rfl
  | .aliased name e => by
    rw [mapColumnsM, mapColumnsM_itself e]
    rfl

theorem mapColumnsOfInputM_itself : ∀ input : Option Expr,
    mapColumnsOfInputM itself input = .ok input
  | none => rfl
  | some e => by
    rw [mapColumnsOfInputM, mapColumnsM_itself e]
    rfl

theorem mapColumnsOfAllM_itself : ∀ es : List Expr, mapColumnsOfAllM itself es = .ok es
  | [] => rfl
  | e :: r => by
    rw [mapColumnsOfAllM, mapColumnsM_itself e, Result.ok_bind, mapColumnsOfAllM_itself r]
    rfl

theorem mapColumnsOfKeysM_itself : ∀ ks : List (SortKey Expr),
    mapColumnsOfKeysM itself ks = .ok ks
  | [] => rfl
  | ⟨e, _, _⟩ :: r => by
    rw [mapColumnsOfKeysM, mapColumnsM_itself e, Result.ok_bind, mapColumnsOfKeysM_itself r]
    rfl

end

/-! ### Renaming -/

/-- **Renaming the columns of an expression** succeeds, and the columns that are read afterwards are
those that were read before, renamed, in their order and as often; names that are kept leave the
expression as it is. -/
theorem mapColumnsM_renamed (e : Expr) (f : ColumnRef → ColumnRef) :
    (∃ q, e.mapColumnsM (fun c => (.ok (ofColumn (f c)) : Result Expr)) = .ok q ∧
      q.columns = e.columns.map f) ∧
    e.mapColumnsM (fun c => (.ok (ofColumn c) : Result Expr)) = .ok e := by
  refine ⟨?_, mapColumnsM_itself e⟩
  obtain ⟨q, hq⟩ := exists_mapColumnsM (e := e) fun c _ => ⟨ofColumn (f c), rfl⟩
  obtain ⟨ps, hps, hcolumns⟩ := replaces_of_mapColumnsM hq
  rw [Result.mapM_eq_ok_map (g := fun c => ofColumn (f c)) fun _ _ => rfl] at hps
  cases hps
  refine ⟨q, hq, ?_⟩
  rw [hcolumns, List.flatMap_map, List.map_eq_flatMap]
  rfl

end Expr

end TableQuery
