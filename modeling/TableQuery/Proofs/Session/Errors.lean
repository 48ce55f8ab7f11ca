import TableQuery.Proofs.Expr.Windows
import TableQuery.Proofs.Result
import TableQuery.Session.Session

/-! # What queries fail with

Rendering a plan, lowering it and running its operators are steps that may fail, each with errors of
its own: about names and types, about values, about batches and inputs, about the tables of the
store. Errors about the result of a query, and the one about full joins that the backend lacks, are
reported by the session alone. `Result.FailsWith` bounds the errors of a computation; it is shown of
one function after the other, up to lowering (`OperatorPlan.failsWith_ofPlan`), rendering
(`Sql.Dialect.failsWith_render`) and running (`OperatorPlan.failsWith_run`) as a whole. -/

namespace TableQuery

/-- Every error of a computation is of some kind. -/
def Result.FailsWith {α : Type} (kind : Error → Prop) (r : Result α) : Prop :=
  ∀ e, r = .error e → kind e

/-- **Errors of the steps of a query**, other than those that the session reports itself. -/
@[simp] def Error.OfQuery : Error → Prop
  | .result _ | .plan .noFullJoin => False
  | _ => True

namespace Result

variable {α β : Type} {kind : Error → Prop}

@[simp] theorem failsWith_ok (a : α) : FailsWith kind (.ok a) := fun _ h => (nomatch h)

@[simp] theorem failsWith_pure (a : α) : FailsWith kind (pure a : Result α) := failsWith_ok a

@[simp] theorem failsWith_error {e : Error} : FailsWith kind (.error e : Result α) ↔ kind e :=
  ⟨fun h => h e rfl, fun h _ he => by cases he; exact h⟩

/-- A computation fails where its first step does, or the rest on what that gives. -/
@[simp] theorem failsWith_bind {r : Result α} {f : α → Result β} :
    (r >>= f).FailsWith kind ↔ r.FailsWith kind ∧ ∀ a, r = .ok a → (f a).FailsWith kind := by
  cases r <;> simp

@[simp] theorem failsWith_map {r : Result α} {f : α → β} :
    FailsWith kind (r.map f) ↔ r.FailsWith kind := by
  cases r <;> simp [Except.map]

theorem failsWith_mapM {f : α → Result β} : ∀ {xs : List α}, (∀ x ∈ xs, (f x).FailsWith kind) →
    FailsWith kind (xs.mapM f)
  | [], _ => failsWith_ok _
  | x :: xs, h => by
    have ih := failsWith_mapM fun y hy => h y (List.mem_cons_of_mem x hy)
    simp [List.mapM_cons, h x List.mem_cons_self, ih]

theorem failsWith_foldlM {f : β → α → Result β} (h : ∀ b x, (f b x).FailsWith kind) :
    ∀ (xs : List α) (b : β), FailsWith kind (xs.foldlM f b)
  | [], _ => failsWith_ok _
  | x :: xs, b => by
    have ih := failsWith_foldlM h xs
    simp [List.foldlM_cons, h, ih]

end Result

open Result

/-! ### Values -/

namespace Scalar

@[simp] theorem failsWith_asBool (v : Scalar) : v.asBool.FailsWith Error.OfQuery := by
  unfold asBool
  split <;> simp

@[simp] theorem failsWith_asInt (v : Scalar) : v.asInt.FailsWith Error.OfQuery := by
  unfold asInt
  split <;> simp

@[simp] theorem failsWith_asInt64 (v : Scalar) : v.asInt64.FailsWith Error.OfQuery := by
  rw [asInt64, failsWith_bind]
  refine ⟨failsWith_asInt v, fun n _ => ?_⟩
  split <;> simp

@[simp] theorem failsWith_asDouble (v : Scalar) : v.asDouble.FailsWith Error.OfQuery := by
  unfold asDouble
  split <;> simp

@[simp] theorem failsWith_ofIntAs (t : IntType) (n : Bool) (v : Int) :
    (ofIntAs t n v).FailsWith Error.OfQuery := by
  unfold ofIntAs
  split <;> simp

@[simp] theorem failsWith_unscaledAt (scale : Nat) (v : Scalar) :
    (unscaledAt scale v).FailsWith Error.OfQuery := by
  unfold unscaledAt
  dsimp only
  split
  · rw [pure_bind]
    repeat' split
    all_goals simp
  · simp only [failsWith_bind, failsWith_asInt, failsWith_pure, true_and]
    intros
    repeat' split
    all_goals simp

@[simp] theorem failsWith_ofUnscaled (op : ArithOp) (a b : Scalar) (scale : Nat) (v : Int) :
    (ofUnscaled op a b scale v).FailsWith Error.OfQuery := by
  unfold ofUnscaled
  split <;> simp

@[simp] theorem failsWith_countIn (unit : IntervalUnit) (iv : Interval) :
    (countIn unit iv).FailsWith Error.OfQuery := by
  unfold countIn
  dsimp only
  repeat' split
  all_goals simp

@[simp] theorem failsWith_intervalOp (op : ArithOp) (unit : IntervalUnit) (a b : Scalar) :
    (intervalOp op unit a b).FailsWith Error.OfQuery := by
  unfold intervalOp
  dsimp only
  repeat' split
  all_goals simp
  all_goals intros
  all_goals split <;> simp

@[simp] theorem failsWith_shift (t : Timestamp) (iv : Interval) (backwards : Bool) :
    (shift t iv backwards).FailsWith Error.OfQuery := by
  unfold shift
  dsimp only
  split <;> simp

@[simp] theorem failsWith_temporalOp (op : ArithOp) (a b : Scalar) :
    (temporalOp op a b).FailsWith Error.OfQuery := by
  unfold temporalOp
  split <;> simp

@[simp] theorem failsWith_arith (op : ArithOp) (a b : Scalar) (t : DataType) :
    (a.arith op b t).FailsWith Error.OfQuery := by
  unfold arith
  repeat' split
  all_goals simp
  all_goals intros
  all_goals split <;> simp

@[simp] theorem failsWith_cast (v : Scalar) (t : DataType) :
    (v.cast t).FailsWith Error.OfQuery := by
  unfold cast
  repeat' split
  all_goals simp
  all_goals intros
  all_goals split <;> simp

@[simp] theorem failsWith_negate (v : Scalar) : v.negate.FailsWith Error.OfQuery := by
  unfold negate
  repeat' split
  all_goals simp

@[simp] theorem failsWith_applyUnary (op : UnaryOp) (v : Scalar) :
    (applyUnary op v).FailsWith Error.OfQuery := by
  unfold applyUnary
  repeat' split
  all_goals simp

@[simp] theorem failsWith_connectFrom (op : Connective) : ∀ (sawNull : Bool) (vs : List Scalar),
    (connectFrom op sawNull vs).FailsWith Error.OfQuery := by
  intro sawNull vs
  fun_induction connectFrom op sawNull vs <;> simp_all

end Scalar

/-! ### Expressions and aggregates -/

namespace RowExpr

mutual

@[simp] theorem failsWith_eval (row : Row) : ∀ e : RowExpr,
    (e.eval row).FailsWith Error.OfQuery
  | .column _ _ | .literal _ => by simp [eval]
  | .arith _ a b _ | .compare _ a b _ => by
    simp [eval, failsWith_eval row a, failsWith_eval row b]
  | .conj _ es _ => by simp [eval, Scalar.connect, failsWith_evalAll row es]
  | .unary _ e _ => by simp [eval, failsWith_eval row e]

@[simp] theorem failsWith_evalAll (row : Row) : ∀ es : List RowExpr,
    (evalAll row es).FailsWith Error.OfQuery
  | [] => by simp [evalAll]
  | e :: r => by simp [evalAll, failsWith_eval row e, failsWith_evalAll row r]

end

@[simp] theorem failsWith_holds (row : Row) (e : RowExpr) :
    (e.holds row).FailsWith Error.OfQuery := by
  simp [holds]

@[simp] theorem failsWith_keepRows (e : RowExpr) : ∀ rows : List Row,
    (e.keepRows rows).FailsWith Error.OfQuery
  | [] => by simp [keepRows]
  | r :: rows => by simp [keepRows, failsWith_keepRows e rows]

end RowExpr

@[simp] theorem AggregateState.failsWith_add (state : AggregateState) (v : Scalar) (t : DataType) :
    (state.add v t).FailsWith Error.OfQuery := by
  unfold add
  repeat' split
  all_goals simp

@[simp] theorem AggregateState.failsWith_update (state : AggregateState) (f : AggregateFunction)
    (v : Scalar) (t : DataType) : (state.update f v t).FailsWith Error.OfQuery := by
  unfold update
  repeat' split
  all_goals simp

@[simp] theorem RowAggregate.failsWith_update (a : RowAggregate) (state : AggregateState)
    (row : Row) : (a.update state row).FailsWith Error.OfQuery := by
  unfold update
  split <;> simp

@[simp] theorem RowAggregate.failsWith_fold (a : RowAggregate) (state : AggregateState)
    (rows : List Row) : (a.fold state rows).FailsWith Error.OfQuery :=
  failsWith_foldlM a.failsWith_update rows state

@[simp] theorem SortKey.failsWith_evalAll (keys : List (SortKey RowExpr)) (row : Row) :
    (SortKey.evalAll keys row).FailsWith Error.OfQuery :=
  failsWith_mapM fun _ _ => RowExpr.failsWith_eval row _

/-! ### Operators -/

@[simp] theorem Row.failsWith_sort (keys : List (SortKey RowExpr)) (rows : List Row) :
    (Row.sort keys rows).FailsWith Error.OfQuery := by
  simp [Row.sort, failsWith_mapM]

namespace RowWindow

theorem failsWith_runningFrom (w : RowWindow) (a : RowAggregate) (state : AggregateState)
    (members : List Member) : (w.runningFrom a state members).FailsWith Error.OfQuery := by
  fun_induction runningFrom w a state members <;> simp_all

@[simp] theorem failsWith_values (w : RowWindow) (rows : List Row) :
    (w.values rows).FailsWith Error.OfQuery := by
  have hkey : ∀ row : Row, (w.partitionKey row).FailsWith Error.OfQuery := fun row =>
    failsWith_mapM fun e _ => by simp
  have hpartition : ∀ members, (w.partitionValues members).FailsWith Error.OfQuery := by
    intro members
    unfold partitionValues
    dsimp only
    split <;> simp [failsWith_runningFrom]
  simp [values, failsWith_mapM, hkey, hpartition]

end RowWindow

theorem Grouping.failsWith_alterM {κ β : Type} [DecidableEq κ] {kind : Error → Prop} (k : κ)
    (initial : β) {f : β → Result β} (h : ∀ b, (f b).FailsWith kind) :
    ∀ groups : List (κ × β), (Grouping.alterM k initial f groups).FailsWith kind
  | [] => by simp [alterM, h]
  | (l, v) :: r => by
    unfold alterM
    split <;> simp [h, failsWith_alterM k initial h r]

@[simp] theorem RowAggregation.failsWith_rows (a : RowAggregation) (input : List Row) :
    (a.rows input).FailsWith Error.OfQuery := by
  have hadd : ∀ row g, (a.addRow row g).FailsWith Error.OfQuery := by
    intro row g
    simp [addRow, failsWith_mapM]
  have hstep : ∀ groups row, (a.step groups row).FailsWith Error.OfQuery := by
    intro groups row
    simp [step, failsWith_mapM, Grouping.failsWith_alterM, hadd]
  simp [rows, failsWith_foldlM hstep]

namespace RowJoin

variable (j : RowJoin)

theorem failsWith_matching (left : Row) : ∀ candidates : List Placed,
    (j.matching left candidates).FailsWith Error.OfQuery
  | [] => by simp [matching]
  | c :: r => by
    have haccepts : (j.accepts left c.1).FailsWith Error.OfQuery := by
      unfold accepts
      split <;> simp
    rw [matching, failsWith_bind]
    refine ⟨haccepts, fun accepted _ => ?_⟩
    repeat' split
    all_goals simp [failsWith_matching left r]

@[simp] theorem failsWith_rows (left right : List Row) :
    (j.rows left right).FailsWith Error.OfQuery := by
  simp [rows, failsWith_mapM, failsWith_matching]

end RowJoin

@[simp] theorem Batch.failsWith_ofRows (types : List DataType) (rows : List Row) :
    (Batch.ofRows types rows).FailsWith Error.OfQuery := by
  unfold ofRows
  split <;> simp

@[simp] theorem Batch.failsWith_project (b : Batch) (exprs : List RowExpr) (types : List DataType) :
    (b.project exprs types).FailsWith Error.OfQuery := by
  rw [project, failsWith_bind]
  refine ⟨failsWith_mapM fun r _ => failsWith_mapM fun e _ => RowExpr.failsWith_eval r e, ?_⟩
  intro rows _
  split <;> simp

/-- A provider that fails with errors of queries. -/
structure RowProvider.FailsWithQuery (provider : RowProvider) : Prop where
  scan : ∀ name, (provider.scan name).FailsWith Error.OfQuery
  query : ∀ sql, (provider.query sql).FailsWith Error.OfQuery

theorem Operator.failsWith_run {provider : RowProvider} (h : provider.FailsWithQuery)
    (types : List DataType) (inputs : List Batch) (op : Operator) :
    (op.run provider types inputs).FailsWith Error.OfQuery := by
  have hsingle : (op.singleInput inputs).FailsWith Error.OfQuery := by
    unfold singleInput
    split <;> simp
  cases op with
  | scan name => exact h.scan name
  | sqlQuery sql => exact h.query sql
  | values batch =>
    rw [run]
    split <;> simp
  | project | filter | sort | limit | aggregate => simp [run, hsingle]
  | window => simp [run, hsingle, failsWith_mapM]
  | join =>
    rw [run.eq_def]
    dsimp only
    split <;> simp

namespace OperatorPlan

mutual

/-- **Running operators** fails with errors of queries, if reading their rows does. -/
theorem failsWith_run {provider : RowProvider} (h : provider.FailsWithQuery) :
    ∀ p : OperatorPlan, (p.run provider).FailsWith Error.OfQuery
  | .node op schema children => by
    simp [run, failsWith_runAll h children, Operator.failsWith_run h]

theorem failsWith_runAll {provider : RowProvider} (h : provider.FailsWithQuery) :
    ∀ ps : List OperatorPlan, (runAll provider ps).FailsWith Error.OfQuery
  | [] => by simp [runAll]
  | p :: r => by simp [runAll, failsWith_run h p, failsWith_runAll h r]

end

end OperatorPlan

/-! ### The store -/

namespace Store

@[simp] theorem failsWith_read {α : Type} (r : Except StoreError α) :
    (read r).FailsWith Error.OfQuery := by
  cases r <;> simp [read, Except.mapError]

/-- Reading from a store fails with errors of queries. -/
theorem failsWith_provider (s : Store) : s.provider.FailsWithQuery where
  scan name := failsWith_read _
  query sql := by
    have hcolumns : ∀ columns, (ColumnBatch.ofColumns columns).FailsWith Error.OfQuery := by
      intro columns
      unfold ColumnBatch.ofColumns
      repeat' split
      all_goals simp
    simp [provider, query, hcolumns]

end Store

/-! ### Lowering -/

@[simp] theorem ArithOp.failsWith_resultType (op : ArithOp) (a b : DataType) :
    (op.resultType a b).FailsWith Error.OfQuery := by
  unfold resultType
  dsimp only
  split <;> simp

@[simp] theorem CompareOp.failsWith_resultType (op : CompareOp) (a b : DataType) :
    (op.resultType a b).FailsWith Error.OfQuery := by
  unfold resultType
  split <;> simp

@[simp] theorem UnaryOp.failsWith_resultType (op : UnaryOp) (t : DataType) :
    (op.resultType t).FailsWith Error.OfQuery := by
  unfold resultType
  repeat' split
  all_goals simp

@[simp] theorem AggregateFunction.failsWith_resultType (f : AggregateFunction) (t : DataType) :
    (f.resultType t).FailsWith Error.OfQuery := by
  unfold resultType
  repeat' split
  all_goals simp

namespace Expr

mutual

@[simp] theorem failsWith_resolve (scopes : List Scope) : ∀ e : Expr,
    (resolve scopes e).FailsWith Error.OfQuery
  | .column _ _ => by
    rw [resolve]
    split <;> simp
  | .literal _ | .aggregate _ _ | .window _ _ _ _ => by simp [resolve]
  | .arith _ a b | .compare _ a b => by
    simp [resolve, failsWith_resolve scopes a, failsWith_resolve scopes b]
  | .conj _ es => by simp [resolve, failsWith_resolveAll scopes es]
  | .unary _ e | .aliased _ e => by simp [resolve, failsWith_resolve scopes e]

@[simp] theorem failsWith_resolveAll (scopes : List Scope) : ∀ es : List Expr,
    (resolveAll scopes es).FailsWith Error.OfQuery
  | [] => by simp [resolveAll]
  | e :: r => by simp [resolveAll, failsWith_resolve scopes e, failsWith_resolveAll scopes r]

end

@[simp] theorem failsWith_resolveCall (scopes : List Scope) (f : AggregateFunction)
    (input : Option Expr) : (resolveCall scopes f input).FailsWith Error.OfQuery := by
  cases input <;> simp [resolveCall]

@[simp] theorem failsWith_resolveAggregate (scopes : List Scope) (e : Expr) :
    (resolveAggregate scopes e).FailsWith Error.OfQuery := by
  unfold resolveAggregate
  split <;> simp

end Expr

@[simp] theorem SortKey.failsWith_resolveAll (scopes : List Scope) (keys : List (SortKey Expr)) :
    (SortKey.resolveAll scopes keys).FailsWith Error.OfQuery :=
  failsWith_mapM fun _ _ => by simp

@[simp] theorem NamedWindow.failsWith_resolve (scopes : List Scope) (w : NamedWindow) :
    (w.resolve scopes).FailsWith Error.OfQuery := by
  unfold NamedWindow.resolve
  split <;> simp [failsWith_mapM]

@[simp] theorem Schema.failsWith_joinIndex (s : Schema) (side name : String) :
    (s.joinIndex side name).FailsWith Error.OfQuery := by
  unfold joinIndex
  split <;> simp

@[simp] theorem Schema.failsWith_ofFields (fields : List (String × DataType)) :
    (ofFields fields).FailsWith Error.OfQuery := by
  unfold ofFields
  split <;> simp

@[simp] theorem Join.failsWith_resolve (j : Join) (left right : Plan) :
    (j.resolve left right).FailsWith Error.OfQuery := by
  have hsource : ∀ o, (Join.rowSource left.schema right.schema o).FailsWith Error.OfQuery := by
    intro o
    unfold Join.rowSource
    split <;> simp
  have hkeys : ∀ c, (Join.keyIndices left.schema right.schema c).FailsWith Error.OfQuery := by
    intro c
    simp [Join.keyIndices]
  have hresidual : Result.FailsWith Error.OfQuery (j.residual.mapM
      (Expr.resolve (Scope.join left.ref left.schema right.ref right.schema))) := by
    cases j.residual with
    | none => exact failsWith_ok _
    | some e => exact failsWith_map.mpr (Expr.failsWith_resolve _ e)
  simp [Join.resolve, failsWith_mapM, hkeys, hsource, hresidual]

namespace Lowering

variable {α β : Type} {kind : Error → Prop} {x : Lowering α} {f : α → Lowering β}

/-- Every error of lowering is of some kind, whatever name comes next. -/
def FailsWith (kind : Error → Prop) (x : Lowering α) : Prop := ∀ n, Result.FailsWith kind (x n)

theorem failsWith_pure (a : α) : (pure a : Lowering α).FailsWith kind :=
  fun n => Result.failsWith_ok (a, n)

theorem failsWith_ofResult {r : Result α} (h : r.FailsWith kind) : (ofResult r).FailsWith kind :=
  fun _ => failsWith_map.mpr h

theorem failsWith_bind (hx : x.FailsWith kind) (hf : ∀ a, (f a).FailsWith kind) :
    (x >>= f).FailsWith kind :=
  fun n => Result.failsWith_bind.mpr ⟨hx n, fun p _ => hf p.1 p.2⟩

end Lowering

namespace OperatorPlan

theorem failsWith_projectNode (child : OperatorPlan) (exprs : List Expr) (schema : Schema) :
    (projectNode child exprs schema).FailsWith Error.OfQuery := by
  have htake : (NamedWindow.takeFrom exprs).FailsWith Error.OfQuery := by
    intro n
    rw [NamedWindow.takeFrom_eq]
    exact failsWith_ok _
  have hnode : ∀ windows, (windowNode child windows).FailsWith Error.OfQuery := by
    intro windows
    simp [windowNode, failsWith_mapM]
  refine Lowering.failsWith_bind htake fun ⟨taken, windows⟩ => ?_
  have hproject : ∀ input : OperatorPlan, (do
      let resolved ← Lowering.ofResult (Expr.resolveAll (Scope.single input.schema) taken)
      return node (.project resolved) schema [input] :
        Lowering OperatorPlan).FailsWith Error.OfQuery := fun input =>
    Lowering.failsWith_bind (Lowering.failsWith_ofResult (Expr.failsWith_resolveAll _ taken))
      fun _ => Lowering.failsWith_pure _
  dsimp only
  split
  · exact hproject child
  · exact Lowering.failsWith_bind (Lowering.failsWith_ofResult (hnode windows)) hproject

theorem failsWith_unaryNode (op : Operation) (schema : Schema) (child : OperatorPlan) :
    (unaryNode op schema child).FailsWith Error.OfQuery := by
  cases op with
  | project exprs => exact failsWith_projectNode child exprs schema
  | _ => exact Lowering.failsWith_ofResult (by simp [failsWith_mapM])

theorem failsWith_lower : ∀ p : Plan, (lower p).FailsWith Error.OfQuery := by
  intro p
  fun_induction lower p with
  | case1 | case2 | case3 => exact Lowering.failsWith_pure _
  | case4 j ref schema left right ihl ihr =>
    exact Lowering.failsWith_bind ihl fun _ => Lowering.failsWith_bind ihr fun _ =>
      Lowering.failsWith_bind (Lowering.failsWith_ofResult (j.failsWith_resolve left right))
        fun _ => Lowering.failsWith_pure _
  | case6 op ref schema child _ _ _ _ ih =>
    exact Lowering.failsWith_bind ih fun _ => failsWith_unaryNode _ _ _
  | case5 | case7 => exact Lowering.failsWith_ofResult (failsWith_error.mpr trivial)

/-- **Lowering** fails with errors of queries, whether or not the plan was checked. -/
theorem failsWith_ofPlan (p : Plan) : (ofPlan p).FailsWith Error.OfQuery :=
  Result.failsWith_bind.mpr ⟨failsWith_lower p 0, fun _ _ => Result.failsWith_pure _⟩

end OperatorPlan

/-! ### Rendering -/

namespace Sql

@[simp] theorem failsWith_baseTypeName (t : BaseType) :
    (baseTypeName t).FailsWith Error.OfQuery := by
  unfold baseTypeName
  split <;> simp

namespace Dialect

variable (d : Dialect)

mutual

@[simp] theorem failsWith_typeName : ∀ t : DataType, (d.typeName t).FailsWith Error.OfQuery
  | .null | .base t _ => by simp [typeName]
  | .list e _ => by simp [typeName, failsWith_typeName e]
  | .struct fs _ => by simp [typeName, failsWith_fieldTypeNames fs]
  | .map k v _ => by simp [typeName, failsWith_typeName k, failsWith_typeName v]

@[simp] theorem failsWith_fieldTypeNames : ∀ fs : List (String × DataType),
    (d.fieldTypeNames fs).FailsWith Error.OfQuery
  | [] => by simp [fieldTypeNames]
  | (n, t) :: r => by simp [fieldTypeNames, failsWith_typeName t, failsWith_fieldTypeNames r]

end

@[simp] theorem failsWith_column (scope : NameScope) (c : ColumnRef) :
    (d.column scope c).FailsWith Error.OfQuery := by
  unfold column
  split
  · simp
  · simp
  · unfold NameScope.sideOf
    repeat' split
    all_goals simp

mutual

@[simp] theorem failsWith_expr (scope : NameScope) : ∀ e : Expr,
    (d.expr scope e).FailsWith Error.OfQuery
  | .column _ _ | .literal _ => by simp [expr]
  | .arith _ a b | .compare _ a b => by
    simp [expr, failsWith_expr scope a, failsWith_expr scope b]
  | .conj _ es => by simp [expr, failsWith_exprs scope es]
  | .unary _ e | .aliased _ e => by simp [expr, failsWith_expr scope e]
  | .aggregate _ input => by simp [expr, failsWith_optionalExpr scope input]
  | .window f input ps ks => by
    simp only [expr, failsWith_bind, failsWith_exprs scope ps, failsWith_sortKeys scope ks,
      true_and]
    intros
    cases f <;> simp [failsWith_optionalExpr scope input]

@[simp] theorem failsWith_optionalExpr (scope : NameScope) : ∀ e : Option Expr,
    (d.optionalExpr scope e).FailsWith Error.OfQuery
  | none => by simp [optionalExpr]
  | some e => by simp [optionalExpr, failsWith_expr scope e]

@[simp] theorem failsWith_exprs (scope : NameScope) : ∀ es : List Expr,
    (d.exprs scope es).FailsWith Error.OfQuery
  | [] => by simp [exprs]
  | e :: r => by simp [exprs, failsWith_expr scope e, failsWith_exprs scope r]

@[simp] theorem failsWith_sortKeys (scope : NameScope) : ∀ ks : List (SortKey Expr),
    (d.sortKeys scope ks).FailsWith Error.OfQuery
  | [] => by simp [sortKeys]
  | ⟨e, _, _⟩ :: r => by simp [sortKeys, failsWith_expr scope e, failsWith_sortKeys scope r]

end

@[simp] theorem failsWith_selectItems (es : List Expr) :
    (d.selectItems es).FailsWith Error.OfQuery := by
  have hitem : ∀ e, (d.selectItem e).FailsWith Error.OfQuery := by
    intro e
    simp [selectItem]
  simp [selectItems, failsWith_mapM, hitem]

@[simp] theorem failsWith_orderBy (scope : NameScope) (keys : List (SortKey Expr)) :
    (d.orderBy scope keys).FailsWith Error.OfQuery := by
  simp [orderBy]

@[simp] theorem failsWith_repeatedOrderBy (input : TableRef) (keys : Option (List (SortKey Expr))) :
    (d.repeatedOrderBy input keys).FailsWith Error.OfQuery := by
  unfold repeatedOrderBy
  split <;> simp

@[simp] theorem failsWith_groupBy (keys : List Expr) :
    (d.groupBy keys).FailsWith Error.OfQuery := by
  unfold groupBy
  split <;> simp [failsWith_mapM]

@[simp] theorem failsWith_values (batch : Batch) (schema : Schema) (ref : TableRef) :
    (d.values batch schema ref).FailsWith Error.OfQuery := by
  have hcolumn : ∀ field, (d.emptyColumn field).FailsWith Error.OfQuery := by
    intro field
    simp [emptyColumn]
  unfold values
  split <;> simp [failsWith_mapM, hcolumn]

@[simp] theorem failsWith_joinPredicate (j : Join) (left right : Plan) :
    (d.joinPredicate j left right).FailsWith Error.OfQuery := by
  simp [joinPredicate, failsWith_mapM]

/-- **Rendering** fails with errors of queries. -/
theorem failsWith_render (form : Form) (p : Plan) : (d.render form p).FailsWith Error.OfQuery := by
  fun_induction render d form p <;> simp_all

end Dialect

end Sql

end TableQuery
