import TableQuery.Expr.Resolve
import TableQuery.Expr.Typing
import TableQuery.Proofs.Schema

/-! # Typing and resolution agree

The type of an expression is worked out twice: over the names of a schema by `Expr.typeIn`, and over
positions by `Expr.resolve`. Here `RowExpr.Typed` says that every node of an expression over
positions carries the type its operator gives it. An expression that has a type resolves to a typed
one of that type if it has neither aggregates nor windows, and to an error that names one of them
otherwise (`resolve_decides`); so does an aggregate by its input (`resolveCall_decides`). What that
says of the types of plain expressions is `resolve_type_eq`. -/

namespace TableQuery

/-! ### Typed expressions over positions -/

namespace RowExpr

/-- **Every node has its operator's type**, over rows with columns of the given types. -/
inductive Typed (types : List DataType) : RowExpr → Prop
  | column {i : Nat} {t : DataType} : types[i]? = some t → Typed types (.column i t)
  | literal (v : Scalar) : Typed types (.literal v)
  | arith {op : ArithOp} {a b : RowExpr} {t : DataType} : Typed types a → Typed types b →
      op.resultType a.type b.type = .ok t → Typed types (.arith op a b t)
  | compare {op : CompareOp} {a b : RowExpr} {t : DataType} : Typed types a → Typed types b →
      op.resultType a.type b.type = .ok t → Typed types (.compare op a b t)
  | conj {op : Connective} {xs : List RowExpr} : (∀ x ∈ xs, Typed types x) →
      (∀ x ∈ xs, x.type.isBoolean = true ∨ x.type.isNull = true) →
      Typed types (.conj op xs (.base .boolean (xs.any (·.type.nullable))))
  | unary {op : UnaryOp} {x : RowExpr} {t : DataType} : Typed types x →
      op.resultType x.type = .ok t → Typed types (.unary op x t)

mutual

/-- Whether an arithmetic operator or a change of sign occurs. -/
def computes : RowExpr → Bool
  | .column _ _ | .literal _ => false
  | .arith _ _ _ _ => true
  | .compare _ a b _ => computes a || computes b
  | .conj _ xs _ => computesAny xs
  | .unary op x _ => op == .negate || computes x

def computesAny : List RowExpr → Bool
  | [] => false
  | x :: r => computes x || computesAny r

end

theorem computesAny_eq_false_iff : ∀ {xs : List RowExpr},
    computesAny xs = false ↔ ∀ x ∈ xs, x.computes = false
  | [] => by simp [computesAny]
  | _ :: r => by simp [computesAny, @computesAny_eq_false_iff r]

end RowExpr

namespace Expr

/-- The expression has neither aggregates nor windows. -/
def Plain (e : Expr) : Prop := e.hasAggregate = false ∧ e.hasWindow = false

mutual

/-- Whether an arithmetic operator or a change of sign occurs outside of aggregates and windows. -/
def computes : Expr → Bool
  | .column _ _ | .literal _ => false
  | .arith _ _ _ => true
  | .compare _ a b => computes a || computes b
  | .conj _ es => computesAny es
  | .unary op e => op == .negate || computes e
  | .aggregate _ _ | .window _ _ _ _ => false
  | .aliased _ e => computes e

def computesAny : List Expr → Bool
  | [] => false
  | e :: r => computes e || computesAny r

end

end Expr

/-! ### Resolving expressions that have types -/

/-- A window or aggregate was left in an expression. -/
def Error.NotExtracted (e : Error) : Prop := ∃ x, e = .typing (.notScalar x)

namespace Expr

variable {schema : Schema}

theorem resolve?_single {name : String} {i : Nat} {t : DataType} (table : Option TableRef)
    (hi : schema.index? name = some i) (ht : schema.type? name = some t) :
    Scope.resolve? (Scope.single schema) ⟨table, name⟩ = some (i, t) := by
  cases table <;> simp [Scope.resolve?, Scope.single, Scope.find?, hi, ht]

theorem resolve_column (table : Option TableRef) {name : String} {t : DataType}
    (h : schema.typeOf name = .ok t) :
    ∃ i, (column table name).resolve (Scope.single schema) = .ok (.column i t) ∧
      schema.types[i]? = some t := by
  have ht := Schema.typeOf_eq_ok_iff.mp h
  obtain ⟨i, hi, hti⟩ := Schema.index?_of_type? ht
  exact ⟨i, by rw [resolve, resolve?_single table hi ht], hti⟩

theorem plain_arith_iff {op : ArithOp} {a b : Expr} : (arith op a b).Plain ↔ a.Plain ∧ b.Plain := by
  simp [Plain, hasAggregate, hasWindow, and_and_and_comm]

theorem plain_compare_iff {op : CompareOp} {a b : Expr} :
    (compare op a b).Plain ↔ a.Plain ∧ b.Plain := by
  simp [Plain, hasAggregate, hasWindow, and_and_and_comm]

/-- All of the expressions are plain. -/
def PlainAll (es : List Expr) : Prop := hasAggregateAny es = false ∧ hasWindowAny es = false

theorem plainAll_cons_iff {e : Expr} {r : List Expr} :
    PlainAll (e :: r) ↔ e.Plain ∧ PlainAll r := by
  simp [PlainAll, Plain, hasAggregateAny, hasWindowAny, and_and_and_comm]

mutual

/-- **Resolving an expression that has a type** succeeds exactly if there are neither aggregates nor
windows in it, and keeps the type. -/
theorem resolve_decides : ∀ {e : Expr} {t : DataType}, e.typeIn schema = .ok t →
    Result.Decides (e.resolve (Scope.single schema)) e.Plain
      (fun x => x.type = t ∧ x.Typed schema.types ∧ x.computes = e.computes) Error.NotExtracted
  | .column table name, t, h => by
    obtain ⟨i, hx, hi⟩ := resolve_column table h
    exact .of_ok hx ⟨rfl, .column hi, rfl⟩ ⟨rfl, rfl⟩
  | .literal v, t, h => by
    cases h
    exact .of_ok rfl ⟨rfl, .literal v, rfl⟩ ⟨rfl, rfl⟩
  | .arith op a b, t, h => by
    simp only [typeIn, Result.bind_eq_ok_iff] at h
    obtain ⟨ta, ha, tb, hb, hop⟩ := h
    rw [resolve]
    refine ((resolve_decides ha).bind fun x ⟨hx, hxt, _⟩ => (resolve_decides hb).bind_ok
      fun y ⟨hy, hyt, _⟩ => ?_).congr plain_arith_iff.symm
    cases hx
    cases hy
    rw [hop]
    exact ⟨_, rfl, rfl, .arith hxt hyt hop, rfl⟩
  | .compare op a b, t, h => by
    simp only [typeIn, Result.bind_eq_ok_iff] at h
    obtain ⟨ta, ha, tb, hb, hop⟩ := h
    rw [resolve]
    refine ((resolve_decides ha).bind fun x ⟨hx, hxt, hxc⟩ => (resolve_decides hb).bind_ok
      fun y ⟨hy, hyt, hyc⟩ => ?_).congr plain_compare_iff.symm
    cases hx
    cases hy
    rw [hop]
    have hc : computes (.compare op a b) = (x.computes || y.computes) := by rw [hxc, hyc, computes]
    exact ⟨_, rfl, rfl, .compare hxt hyt hop, hc.symm⟩
  | .conj op es, t, h => by
    simp only [typeIn, Result.bind_eq_ok_iff] at h
    obtain ⟨n, hn, ht⟩ := h
    cases ht
    rw [resolve]
    refine ((resolveAll_decides hn).bind_pure fun xs ⟨hxs, htyped, hbool, hc⟩ => ?_).congr Iff.rfl
    cases hxs
    exact ⟨rfl, .conj htyped hbool, hc⟩
  | .unary op e, t, h => by
    simp only [typeIn, Result.bind_eq_ok_iff] at h
    obtain ⟨te, hte, hop⟩ := h
    rw [resolve]
    refine ((resolve_decides (e := e) hte).bind_ok fun x ⟨hx, hxt, hxc⟩ => ?_).congr Iff.rfl
    cases hx
    rw [hop]
    exact ⟨_, rfl, rfl, .unary hxt hop, by rw [RowExpr.computes, computes, hxc]⟩
  | .aggregate f input, t, _ => .of_error rfl ⟨_, rfl⟩ fun he => by cases he.1
  | .window f input ps ks, t, _ => .of_error rfl ⟨_, rfl⟩ fun he => by cases he.2
  | .aliased _ e, t, h => resolve_decides (e := e) h

theorem resolveAll_decides {op : Connective} : ∀ {es : List Expr} {n : Bool},
    nullableOperandsIn schema op es = .ok n →
    Result.Decides (resolveAll (Scope.single schema) es) (PlainAll es)
      (fun xs => xs.any (·.type.nullable) = n ∧ (∀ x ∈ xs, x.Typed schema.types) ∧
        (∀ x ∈ xs, x.type.isBoolean = true ∨ x.type.isNull = true) ∧
        RowExpr.computesAny xs = computesAny es) Error.NotExtracted
  | [], n, h => by
    cases h
    exact .of_ok rfl ⟨rfl, by simp, by simp, rfl⟩ ⟨rfl, rfl⟩
  | e :: r, n, h => by
    simp only [nullableOperandsIn, Result.bind_eq_ok_iff] at h
    obtain ⟨te, hte, h⟩ := h
    split at h
    · cases h
    · rename_i hb
      have hbool : te.isBoolean = true ∨ te.isNull = true := by
        rw [Bool.not_eq_true, Bool.not_eq_false'] at hb
        simpa using hb
      obtain ⟨m, hm, hn⟩ := Result.bind_eq_ok_iff.mp h
      cases hn
      rw [resolveAll]
      refine ((resolve_decides hte).bind fun x ⟨hx, hxt, hxc⟩ => (resolveAll_decides hm).bind_pure
        fun xs ⟨hxs, htyped, hall, hc⟩ => ?_).congr plainAll_cons_iff.symm
      cases hx
      refine ⟨?_, List.forall_mem_cons.mpr ⟨hxt, htyped⟩, List.forall_mem_cons.mpr ⟨hbool, hall⟩,
        ?_⟩
      · rw [List.any_cons, hxs]
      · rw [RowExpr.computesAny, computesAny, hxc, hc]

end

theorem resolve_of_typeIn {e : Expr} {t : DataType} (he : e.Plain) (h : e.typeIn schema = .ok t) :
    ∃ x, e.resolve (Scope.single schema) = .ok x ∧ x.type = t ∧ x.Typed schema.types ∧
      x.computes = e.computes := (resolve_decides h).ok he

/-- An aggregate that has a type is resolved exactly if its input is plain. -/
theorem resolveCall_decides {f : AggregateFunction} {input : Option Expr} {t : DataType}
    (h : (aggregate f input).typeIn schema = .ok t) :
    Result.Decides (resolveCall (Scope.single schema) f input) (∀ e ∈ input, e.Plain)
      (fun a => a.type = t) Error.NotExtracted := by
  simp only [typeIn, aggregateType] at h
  split at h
  · cases h
  · obtain ⟨u, hu, hf⟩ := Result.bind_eq_ok_iff.mp h
    cases input with
    | none =>
      cases hu
      refine .of_ok (a := ⟨f, none, t⟩) ?_ rfl (by simp)
      simp [resolveCall, hf]
    | some e =>
      have hcall : resolveCall (Scope.single schema) f (some e) =
          e.resolve (Scope.single schema) >>= fun x => do
            let t ← f.resultType x.type
            return ⟨f, some x, t⟩ := by
        rw [resolveCall, Option.mapM_some]
        cases e.resolve (Scope.single schema) <;> rfl
      rw [hcall]
      refine ((resolve_decides hu).bind_ok fun x ⟨hx, _⟩ => ?_).congr (by simp)
      rw [hx, hf]
      exact ⟨_, rfl, rfl⟩

/-- An aggregate whose input has a type resolves to a call of the aggregate's type. -/
theorem resolveCall_of_typeIn {f : AggregateFunction} {input : Option Expr} {t : DataType}
    (hi : ∀ e ∈ input, e.Plain) (h : (aggregate f input).typeIn schema = .ok t) :
    ∃ a, resolveCall (Scope.single schema) f input = .ok a ∧ a.type = t :=
  (resolveCall_decides h).ok hi

/-- **The two typings agree**: an expression without aggregates and windows that has a type over a
schema resolves to one that carries exactly this type, and so does an aggregate of such an input. -/
theorem resolve_type_eq (schema : Schema) :
    (∀ (e : Expr) (t : DataType), e.Plain → e.typeIn schema = .ok t →
      ∃ x, e.resolve (Scope.single schema) = .ok x ∧ x.type = t) ∧
    ∀ (f : AggregateFunction) (input : Option Expr) (t : DataType), (∀ e ∈ input, e.Plain) →
      (aggregate f input).typeIn schema = .ok t →
      ∃ a, resolveCall (Scope.single schema) f input = .ok a ∧ a.type = t := by
  refine ⟨fun e t he h => ?_, fun f input t hi h => resolveCall_of_typeIn hi h⟩
  obtain ⟨x, hx, hxt, -⟩ := resolve_of_typeIn he h
  exact ⟨x, hx, hxt⟩

/-- A null operand, a decimal product under a name and its sum. -/
theorem resolve_type_product :
    let schema : Schema :=
      ⟨[("price", .decimal 10 2), ("amount", .nonNull (.int .int32))], by decide⟩
    let cost := aliased "cost" (arith .mul (col "price") (unary .negate (col "amount")))
    let dear := conj .and [compare .lt cost (literal .null), unary .isNull (col "amount")]
    cost.Plain ∧ dear.Plain ∧ dear.typeIn schema = .ok .boolean ∧
      (aggregate .sum (some cost)).typeIn schema = .ok (.decimal 38 2) ∧
      (∃ x, dear.resolve (Scope.single schema) = .ok x ∧ x.type = .boolean) ∧
      ∃ a, resolveCall (Scope.single schema) .sum (some cost) = .ok a ∧ a.type = .decimal 38 2 := by
  intro schema cost dear
  have hcost : cost.Plain := ⟨rfl, rfl⟩
  have hdear : dear.Plain := ⟨rfl, rfl⟩
  have ht : dear.typeIn schema = .ok .boolean := rfl
  have hs : (aggregate .sum (some cost)).typeIn schema = .ok (.decimal 38 2) := rfl
  obtain ⟨hscalar, hcall⟩ := resolve_type_eq schema
  refine ⟨hcost, hdear, ht, hs, hscalar dear _ hdear ht, hcall .sum (some cost) _ ?_ hs⟩
  intro e he
  cases he
  exact hcost

end Expr

end TableQuery
