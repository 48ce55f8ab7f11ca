import Mathlib.Data.List.Nodup
import Std.Data.String.ToNat
import TableQuery.Proofs.Expr.Windows
import TableQuery.Proofs.Join.Planned
import TableQuery.Proofs.Relation.Built

/-! # Which plans are lowered

Lowering resolves every expression of a plan again, over schemas that the calls which built the plan
have checked. What it asks for beyond these checks is that windows and aggregates can be taken out:
nothing is nested in a window or in a metric, and no column has a name that is made up for a window
(`Plan.Extractable`).

Each function that lowering is made of is decided by a condition of its own: an expression by
`Expr.Plain`, a window by `WindowCall.Flat`, a window operator by free names besides, a metric by
having no window. `lower_decides` puts these together by induction on the plan, and
`Built.ofPlan_isOk_iff` says it of the tables that calls can build. -/

namespace TableQuery

/-! ### Errors of lowering -/

namespace Error

/-- A column has the name that is made up for a window. -/
def NameTaken (e : Error) : Prop :=
  ∃ n, e = .schema (.duplicateColumn (NamedWindow.columnName n))

/-- What lowering a checked plan may report. -/
def OfLowering (e : Error) : Prop := e.NotExtracted ∨ e.NameTaken

end Error

namespace Lowering

variable {α β : Type} (f : α → Lowering β) (n : Nat)

theorem bind_run (x : Lowering α) : (x >>= f) n = x n >>= fun p => f p.1 p.2 := rfl

theorem ofResult_bind_run (r : Result α) : (ofResult r >>= f) n = r >>= fun a => f a n := by
  cases r <;> rfl

end Lowering

/-! ### Resolving expressions that have types -/

namespace Expr

variable {s : Schema}

theorem mapM_resolve_decides {es : List Expr} (h : ∀ e ∈ es, ∃ t, e.typeIn s = .ok t) :
    Result.Decides (es.mapM (Expr.resolve (Scope.single s))) (∀ e ∈ es, e.Plain) (fun _ => True)
      Error.NotExtracted :=
  (Result.Decides.mapM fun e he =>
    let ⟨_, ht⟩ := h e he
    (resolve_decides ht).mono fun _ _ => trivial).mono fun _ _ => trivial

theorem resolveAll_eq_mapM (scopes : List Scope) (es : List Expr) :
    resolveAll scopes es = es.mapM (Expr.resolve scopes) := by
  induction es with
  | nil => rfl
  | cons e r ih => rw [resolveAll, List.mapM_cons, ih]

theorem sortKeys_resolve_decides {ks : List (SortKey Expr)}
    (h : ∀ k ∈ ks, ∃ t, k.expr.typeIn s = .ok t) :
    Result.Decides (SortKey.resolveAll (Scope.single s) ks) (∀ k ∈ ks, k.expr.Plain)
      (fun _ => True) Error.NotExtracted := by
  have hkey : ∀ k ∈ ks, Result.Decides
      (do
        let x ← k.expr.resolve (Scope.single s)
        return (⟨x, k.descending, k.nullsFirst⟩ : SortKey RowExpr))
      k.expr.Plain (fun _ => True) Error.NotExtracted := by
    intro k hk
    obtain ⟨t, ht⟩ := h k hk
    exact (resolve_decides ht).bind_pure fun _ _ => trivial
  exact (Result.Decides.mapM (G := fun _ _ => True) hkey).mono fun _ _ => trivial

theorem exists_type_of_checkAllIn : ∀ {es : List Expr}, checkAllIn s es = .ok () →
    ∀ e ∈ es, ∃ t, e.typeIn s = .ok t
  | [], _, _, he => nomatch he
  | e :: r, h, d, hd => by
    obtain ⟨t, ht, h⟩ := Result.bind_eq_ok_iff.mp h
    rcases List.mem_cons.mp hd with rfl | hd
    · exact ⟨t, ht⟩
    · exact exists_type_of_checkAllIn h d hd

theorem exists_type_of_checkKeysIn : ∀ {ks : List (SortKey Expr)}, checkKeysIn s ks = .ok () →
    ∀ k ∈ ks, ∃ t, k.expr.typeIn s = .ok t
  | [], _, _, hk => nomatch hk
  | k :: r, h, d, hd => by
    obtain ⟨t, ht, h⟩ := Result.bind_eq_ok_iff.mp h
    rcases List.mem_cons.mp hd with rfl | hd
    · exact ⟨t, ht⟩
    · exact exists_type_of_checkKeysIn h d hd

end Expr

/-! ### Windows -/

namespace WindowCall

variable {s : Schema} {w : WindowCall}

/-- **Nothing is nested in the window**: its aggregate, its partitions and its sort keys have
neither aggregates nor windows in them. -/
def Flat (w : WindowCall) : Prop :=
  (∀ f, w.function = .aggregate f → ∀ e ∈ w.input, e.Plain) ∧
    (∀ e ∈ w.partitionBy, e.Plain) ∧ ∀ k ∈ w.orderBy, k.expr.Plain

/-- A window that has a type is resolved exactly if nothing is nested in it. -/
theorem resolve_named_decides {t : DataType} (h : w.expr.typeIn s = .ok t) (n : Nat) :
    Result.Decides ((w.named n).resolve (Scope.single s)) w.Flat (fun r => r.type = t)
      Error.NotExtracted := by
  simp only [expr, Expr.typeIn, Result.bind_eq_ok_iff] at h
  obtain ⟨_, hps, _, hks, h⟩ := h
  have hrest : ∀ function : RowWindowFunction, Result.Decides (do
      let partitionBy ← w.partitionBy.mapM (Expr.resolve (Scope.single s))
      let orderBy ← SortKey.resolveAll (Scope.single s) w.orderBy
      return (⟨function, partitionBy, orderBy, t⟩ : RowWindow))
      ((∀ e ∈ w.partitionBy, e.Plain) ∧ ∀ k ∈ w.orderBy, k.expr.Plain) (fun r => r.type = t)
      Error.NotExtracted := fun _ =>
    (Expr.mapM_resolve_decides (Expr.exists_type_of_checkAllIn hps)).bind fun _ _ =>
      (Expr.sortKeys_resolve_decides (Expr.exists_type_of_checkKeysIn hks)).bind_pure fun _ _ => rfl
  unfold NamedWindow.resolve
  dsimp only [named]
  cases hf : w.function with
  | rowNumber =>
    rw [hf] at h
    cases h
    refine (hrest .rowNumber).congr ?_
    simp [Flat, hf]
  | aggregate f =>
    rw [hf] at h
    have hcall : Result.Decides ((Expr.resolveCall (Scope.single s) f w.input).map fun a =>
        (RowWindowFunction.aggregate a, a.type)) (∀ e ∈ w.input, e.Plain) (fun p => p.2 = t)
        Error.NotExtracted := (Expr.resolveCall_decides h).map fun _ ha => ha
    refine (hcall.bind fun p hp => (?_ : Result.Decides _
      ((∀ e ∈ w.partitionBy, e.Plain) ∧ ∀ k ∈ w.orderBy, k.expr.Plain) _ _)).congr ?_
    · obtain ⟨function, type⟩ := p
      cases hp
      exact hrest function
    · simp [Flat, hf]

end WindowCall

/-! ### The window operator -/

theorem NamedWindow.columnName_inj {m n : Nat} (h : columnName m = columnName n) : m = n :=
  Nat.repr_inj.mp ((String.append_right_inj _).mp h)

namespace OperatorPlan

/-- The columns of windows, numbered from `n` on. -/
def windowFields (n : Nat) (ws : List WindowCall) (rs : List RowWindow) :
    List (String × DataType) :=
  ((WindowCall.nameFrom n ws).zip rs).map fun (w, r) => (w.name, r.type)

/-- None of the names of so many windows is taken, numbered from `n` on. -/
def NamesFree (s : Schema) (n count : Nat) : Prop :=
  ∀ i < count, NamedWindow.columnName (n + i) ∉ s.names

/-- **Windows over a schema**: they are resolved with their types, and another schema has their
columns behind its own. -/
structure WindowsOver (s : Schema) (n : Nat) (ws : List WindowCall) (rs : List RowWindow)
    (w : Schema) : Prop where
  resolved : (WindowCall.nameFrom n ws).mapM (NamedWindow.resolve (Scope.single s)) = .ok rs
  types : List.Forall₂ (fun c r => c.expr.typeIn s = .ok (RowWindow.type r)) ws rs
  fields : w.fields = s.fields ++ windowFields n ws rs

variable {s w : Schema} {n : Nat} {ws : List WindowCall} {rs : List RowWindow}

theorem windowFields_getElem? {j : Nat} {c : WindowCall} {r : RowWindow} (hc : ws[j]? = some c)
    (hr : rs[j]? = some r) :
    (windowFields n ws rs)[j]? = some (NamedWindow.columnName (n + j), r.type) := by
  have hname : (WindowCall.nameFrom n ws)[j]? = some (c.named (n + j)) := by
    simp [WindowCall.nameFrom, hc]
  have hzip : ((WindowCall.nameFrom n ws).zip rs)[j]? = some (c.named (n + j), r) :=
    List.getElem?_zip_eq_some.mpr ⟨hname, hr⟩
  rw [windowFields, List.getElem?_map, hzip]
  rfl

theorem map_fst_windowFields (h : ws.length = rs.length) :
    (windowFields n ws rs).map Prod.fst = (List.range ws.length).map fun i =>
      NamedWindow.columnName (n + i) := by
  refine List.ext_getElem? fun j => ?_
  rw [List.getElem?_map, List.getElem?_map]
  by_cases hj : j < ws.length
  · rw [windowFields_getElem? (List.getElem?_eq_getElem hj) (List.getElem?_eq_getElem (h ▸ hj)),
      List.getElem?_range hj]
    rfl
  · rw [List.getElem?_eq_none, List.getElem?_eq_none]
    · rfl
    · simpa using hj
    · simpa [windowFields, WindowCall.nameFrom, ← h] using hj

namespace WindowsOver

theorem columnsIn (h : WindowsOver s n ws rs w) : s.ColumnsIn w := fun _ _ =>
  Schema.typeOf_of_fields_append h.fields

theorem typedIn (h : WindowsOver s n ws rs w) : Expr.TypedIn s w n ws := by
  rintro ⟨c, k⟩ hmem
  obtain ⟨hle, hc⟩ := List.mk_mem_zipIdx_iff_le_and_getElem?_sub.mp hmem
  obtain ⟨r, hr, ht⟩ := exists_of_forall₂_getElem? h.types hc
  have hfield := windowFields_getElem? (n := n) hc hr
  rw [Nat.add_sub_cancel' hle] at hfield
  rw [ht, Schema.typeOf_eq_ok_iff, Schema.type?_eq_some_iff, h.fields]
  exact List.mem_append_right _ (List.mem_of_getElem? hfield)

end WindowsOver

/-- There is a schema with the columns of windows exactly if their names are free. -/
theorem ofFields_windowFields_decides (h : ws.length = rs.length) :
    Result.Decides (Schema.ofFields (s.fields ++ windowFields n ws rs)) (NamesFree s n ws.length)
      (fun w => w.fields = s.fields ++ windowFields n ws rs) Error.OfLowering := by
  have hextra : ((windowFields n ws rs).map Prod.fst).Nodup := by
    rw [map_fst_windowFields h]
    refine List.Nodup.map (fun i j hij => ?_) List.nodup_range
    exact Nat.add_left_cancel (NamedWindow.columnName_inj hij)
  have hnodup : ((s.fields ++ windowFields n ws rs).map Prod.fst).Nodup ↔
      NamesFree s n ws.length := by
    rw [List.map_append, List.nodup_append, map_fst_windowFields h]
    constructor
    · rintro ⟨-, -, hdisjoint⟩ i hi hmem
      exact hdisjoint _ hmem _ (List.mem_map_of_mem (List.mem_range.mpr hi)) rfl
    · intro hfree
      refine ⟨s.nodup, map_fst_windowFields h ▸ hextra, ?_⟩
      rintro a ha b hb rfl
      obtain ⟨i, hi, rfl⟩ := List.mem_map.mp hb
      exact hfree i (List.mem_range.mp hi) ha
  refine ⟨fun hfree => ⟨⟨_, hnodup.mpr hfree⟩, dif_pos (hnodup.mpr hfree), rfl⟩, fun hnot => ?_⟩
  obtain ⟨name, hmem, herror⟩ := Schema.ofFields_append_eq_error fun hn => hnot (hnodup.mp hn)
  rw [map_fst_windowFields h] at hmem
  obtain ⟨i, -, rfl⟩ := List.mem_map.mp hmem
  exact ⟨_, herror, .inr ⟨_, rfl⟩⟩

/-- **The window operator** can be put on top of an input exactly if nothing is nested in the
windows and the names of their columns are free. -/
theorem windowNode_decides {child : OperatorPlan} (hs : child.schema = s)
    (h : ∀ c ∈ ws, ∃ t, c.expr.typeIn s = .ok t) :
    Result.Decides (windowNode child (WindowCall.nameFrom n ws))
      ((∀ c ∈ ws, c.Flat) ∧ NamesFree s n ws.length)
      (fun p => ∃ rs w, p = .node (.window rs) w [child] ∧ WindowsOver s n ws rs w)
      Error.OfLowering := by
  subst hs
  have hresolved : Result.Decides
      ((WindowCall.nameFrom n ws).mapM (NamedWindow.resolve (Scope.single child.schema)))
      (∀ c ∈ ws, c.Flat)
      (List.Forall₂ (fun c r => c.expr.typeIn child.schema = .ok (RowWindow.type r)) ws)
      Error.NotExtracted := by
    have hwindow : ∀ p ∈ ws.zipIdx n, Result.Decides
        ((p.1.named p.2).resolve (Scope.single child.schema)) p.1.Flat
        (fun r => p.1.expr.typeIn child.schema = .ok r.type) Error.NotExtracted := by
      intro p hp
      obtain ⟨t, ht⟩ := h p.1 (List.fst_mem_of_mem_zipIdx hp)
      exact (p.1.resolve_named_decides ht p.2).mono fun r hr => hr ▸ ht
    have hall := Result.Decides.mapM hwindow
    rw [WindowCall.nameFrom, List.mapM_map]
    refine (hall.mono fun rs hrs => ?_).congr ?_
    · rw [← List.zipIdx_map_fst n ws, List.forall₂_map_left_iff]
      exact hrs
    · rw [← List.forall_mem_map (f := Prod.fst) (P := WindowCall.Flat), List.zipIdx_map_fst]
  refine (hresolved.with_eq.mono_error fun _ => .inl).bind fun rs hover => ?_
  obtain ⟨hrs, htypes⟩ := hover
  refine (ofFields_windowFields_decides htypes.length_eq).bind_pure fun w hw => ?_
  exact ⟨rs, w, rfl, hrs, htypes, hw⟩

/-! ### Projections -/

/-- What a projection on top of an input is lowered to: the windows are computed between the two, if
there are any, and the expressions read their columns. -/
structure Projected (child : OperatorPlan) (exprs : List Expr) (schema : Schema) (n : Nat)
    (rs : List RowWindow) (w : Schema) (xs : List RowExpr) (p : OperatorPlan) : Prop where
  windows : WindowsOver child.schema n (Expr.windowsOfAll exprs) rs w
  resolved : Expr.resolveAll (Scope.single w) (Expr.withColumnsAll n exprs) = .ok xs
  eq : p = .node (.project xs) schema
    [if Expr.windowsOfAll exprs = [] then child else .node (.window rs) w [child]]

theorem types_of_mapM_projectedField {s : Schema} : ∀ {exprs : List Expr}
    {fields : List (String × DataType)},
    exprs.mapM (Table.projectedField s) = .ok fields → Expr.hasAggregateAny exprs = false ∧
      exprs.mapM (Expr.typeIn s) = .ok (fields.map Prod.snd)
  | [], _, h => by
    cases h
    exact ⟨rfl, rfl⟩
  | e :: r, _, h => by
    simp only [List.mapM_cons, Result.bind_eq_ok_iff] at h
    obtain ⟨field, he, fields, hr, h⟩ := h
    cases h
    obtain ⟨har, hts⟩ := types_of_mapM_projectedField hr
    unfold Table.projectedField at he
    split at he
    · cases he
    · rename_i hae
      obtain ⟨t, ht, rfl⟩ := Result.map_eq_ok_iff.mp he
      rw [Expr.hasAggregateAny, har, Bool.or_false, List.mapM_cons, ht, hts]
      exact ⟨Bool.eq_false_of_not_eq_true hae, rfl⟩

/-- What a projection reads: its input, or the windows that are computed on top of it. -/
def projectInput (child : OperatorPlan) (n : Nat) (ws : List WindowCall) : Result OperatorPlan :=
  if ws = [] then .ok child else windowNode child (WindowCall.nameFrom n ws)

theorem projectInput_decides {child : OperatorPlan} {ws : List WindowCall} (n : Nat)
    (h : ∀ c ∈ ws, ∃ t, c.expr.typeIn child.schema = .ok t) :
    Result.Decides (projectInput child n ws)
      ((∀ c ∈ ws, c.Flat) ∧ NamesFree child.schema n ws.length)
      (fun input => ∃ rs w, WindowsOver child.schema n ws rs w ∧ input.schema = w ∧
        input = if ws = [] then child else .node (.window rs) w [child])
      Error.OfLowering := by
  unfold projectInput
  split
  · rename_i hnone
    rw [hnone]
    refine .of_ok rfl ⟨[], child.schema, ⟨rfl, .nil, (List.append_nil _).symm⟩, rfl, rfl⟩ ?_
    exact ⟨fun _ hc => (nomatch hc), fun _ hi => (nomatch hi)⟩
  · refine (windowNode_decides rfl h).mono ?_
    rintro _ ⟨rs, w, rfl, hover⟩
    exact ⟨rs, w, hover, rfl, rfl⟩

/-- A projection step by step, its windows taken out. -/
theorem projectNode_eq (child : OperatorPlan) (exprs : List Expr) (schema : Schema) (n : Nat) :
    projectNode child exprs schema n = do
      let input ← projectInput child n (Expr.windowsOfAll exprs)
      let xs ← Expr.resolveAll (Scope.single input.schema) (Expr.withColumnsAll n exprs)
      return (node (.project xs) schema [input], n + (Expr.windowsOfAll exprs).length) := by
  have hisEmpty : (WindowCall.nameFrom n (Expr.windowsOfAll exprs)).isEmpty = true ↔
      Expr.windowsOfAll exprs = [] := by simp [WindowCall.nameFrom]
  rw [projectNode, Lowering.bind_run, NamedWindow.takeFrom_eq, Result.ok_bind]
  simp only [hisEmpty, projectInput]
  by_cases hnone : Expr.windowsOfAll exprs = []
  · simp only [if_pos hnone, pure_bind, Lowering.ofResult_bind_run]
    rfl
  · simp only [if_neg hnone, Lowering.ofResult_bind_run]
    rfl

/-- **A projection** is lowered exactly if nothing is nested in its windows and the names of their
columns are free. -/
theorem projectNode_decides {child : OperatorPlan} {exprs : List Expr} {schema : Schema} (n : Nat)
    (h : exprs.mapM (Table.projectedField child.schema) = .ok schema.fields) :
    Result.Decides (projectNode child exprs schema n)
      ((∀ c ∈ Expr.windowsOfAll exprs, c.Flat) ∧
        NamesFree child.schema n (Expr.windowsOfAll exprs).length)
      (fun q => q.2 = n + (Expr.windowsOfAll exprs).length ∧
        ∃ rs w xs, Projected child exprs schema n rs w xs q.1)
      Error.OfLowering := by
  obtain ⟨hagg, htypes⟩ := types_of_mapM_projectedField h
  have hinput := projectInput_decides n (Expr.exists_type_of_mem_windowsOfAll htypes)
  rw [projectNode_eq]
  refine hinput.bind_ok fun input ⟨rs, w, hover, hw, heq⟩ => ?_
  obtain ⟨xs, hxs, -, -⟩ :=
    Expr.resolveAll_withColumnsAll hover.columnsIn hagg htypes hover.typedIn
  rw [hw, hxs]
  exact ⟨_, rfl, rfl, rs, w, xs, hover, hxs, by rw [heq]⟩

end OperatorPlan

/-! ### Metrics -/

namespace Expr

variable {s : Schema}

theorem typeIn_unaliased : ∀ e : Expr, e.unaliased.typeIn s = e.typeIn s
  | .aliased _ e => typeIn_unaliased e
  | .column _ _ | .literal _ | .arith _ _ _ | .compare _ _ _ | .conj _ _ | .unary _ _
  | .aggregate _ _ | .window _ _ _ _ => rfl

theorem hasWindow_unaliased : ∀ e : Expr, e.unaliased.hasWindow = e.hasWindow
  | .aliased _ e => hasWindow_unaliased e
  | .column _ _ | .literal _ | .arith _ _ _ | .compare _ _ _ | .conj _ _ | .unary _ _
  | .aggregate _ _ | .window _ _ _ _ => rfl

/-- A metric is resolved exactly if there is no window in it. -/
theorem resolveAggregate_decides {metric : Expr} {field : String × DataType}
    (h : Table.metricField s metric = .ok field) :
    Result.Decides (resolveAggregate (Scope.single s) metric) (metric.hasWindow = false)
      (fun _ => True) Error.NotExtracted := by
  unfold Table.metricField at h
  split at h
  · rename_i f input hmetric
    obtain ⟨t, ht, -⟩ := Result.map_eq_ok_iff.mp h
    rw [← typeIn_unaliased, hmetric] at ht
    have hinput : ∀ e ∈ input, e.hasAggregate = false := by
      intro e he
      cases he
      simp only [typeIn, aggregateType] at ht
      split at ht
      · cases ht
      · rename_i hany
        simpa using hany
    rw [resolveAggregate, hmetric, ← hasWindow_unaliased, hmetric]
    refine ((resolveCall_decides ht).mono fun _ _ => trivial).congr ?_
    cases input with
    | none => simp [hasWindow]
    | some e => simp [hasWindow, Plain, hinput e rfl]
  · cases h

end Expr

/-! ### Plans -/

namespace Plan

/-- How many windows stand outermost in the projections of a plan, each of which takes up a name. -/
def windowCount : Plan → Nat
  | .node (.project exprs) _ _ [c] => windowCount c + (Expr.windowsOfAll exprs).length
  | .node (.join _) _ _ [l, r] => windowCount l + windowCount r
  | .node _ _ _ [c] => windowCount c
  | _ => 0

/-- **Every window and aggregate can be taken out**, where names are made up from the `n`-th on:
nothing is nested in a window of a projection, no window is nested in a metric, and the columns that
a projection with windows reads leave the names free that its windows get. -/
def Extractable : Plan → Nat → Prop
  | .node (.project exprs) _ _ [c], n => Extractable c n ∧
      (∀ w ∈ Expr.windowsOfAll exprs, w.Flat) ∧
      OperatorPlan.NamesFree c.schema (n + c.windowCount) (Expr.windowsOfAll exprs).length
  | .node (.aggregate _ metrics) _ _ [c], n =>
      Extractable c n ∧ ∀ metric ∈ metrics, metric.hasWindow = false
  | .node (.join _) _ _ [l, r], n => Extractable l n ∧ Extractable r (n + l.windowCount)
  | .node _ _ _ [c], n => Extractable c n
  | _, _ => True

end Plan

namespace OperatorPlan

/-- **One node of lowering**: a node with one input, over the input that was lowered. -/
theorem lower_unary_decides {op : Operation} {ref : TableRef} {schema : Schema} {c : Plan} {n : Nat}
    {cond : Prop} {count : Nat}
    (hlower : lower (.node op ref schema [c]) = lower c >>= unaryNode op schema)
    (hc : Result.Decides (lower c n) (c.Extractable n)
      (fun q => q.1.schema = c.schema ∧ q.2 = n + c.windowCount) Error.OfLowering)
    (hop : ∀ child : OperatorPlan, child.schema = c.schema →
      Result.Decides (unaryNode op schema child (n + c.windowCount)) cond
        (fun q => q.1.schema = schema ∧ q.2 = n + c.windowCount + count) Error.OfLowering) :
    Result.Decides (lower (.node op ref schema [c]) n) (c.Extractable n ∧ cond)
      (fun q => q.1.schema = schema ∧ q.2 = n + (c.windowCount + count)) Error.OfLowering := by
  rw [hlower, Lowering.bind_run, ← Nat.add_assoc]
  refine hc.bind fun ⟨child, m⟩ ⟨hschema, hm⟩ => ?_
  dsimp only at hschema hm ⊢
  rw [hm]
  exact hop child hschema

/-- A node that is lowered whatever its input is lowered to. -/
theorem lower_simple_decides {op : Operation} {ref : TableRef} {schema : Schema} {c : Plan}
    {n : Nat} (hlower : lower (.node op ref schema [c]) = lower c >>= unaryNode op schema)
    (hc : Result.Decides (lower c n) (c.Extractable n)
      (fun q => q.1.schema = c.schema ∧ q.2 = n + c.windowCount) Error.OfLowering)
    (hop : ∀ child : OperatorPlan, child.schema = c.schema →
      ∃ rop : Operator, unaryNode op schema child = .ofResult (.ok (.node rop schema [child]))) :
    Result.Decides (lower (.node op ref schema [c]) n) (c.Extractable n)
      (fun q => q.1.schema = schema ∧ q.2 = n + c.windowCount) Error.OfLowering := by
  rw [hlower, Lowering.bind_run]
  refine hc.bind_ok fun ⟨child, m⟩ ⟨hschema, hm⟩ => ?_
  obtain ⟨rop, hrop⟩ := hop child hschema
  dsimp only
  rw [hrop]
  exact ⟨_, rfl, rfl, hm⟩

/-- A predicate or key that reads one row and has a type can be resolved. -/
theorem exists_resolve_of_typeIn {s : Schema} {e : Expr} {t : DataType}
    (hrows : Table.readsManyRows e = false) (h : e.typeIn s = .ok t) :
    ∃ x, e.resolve (Scope.single s) = .ok x := by
  obtain ⟨hagg, hwindow⟩ := Bool.or_eq_false_iff.mp hrows
  obtain ⟨x, hx, -⟩ := Expr.resolve_of_typeIn ⟨hagg, hwindow⟩ h
  exact ⟨x, hx⟩

theorem resolve_of_filterSchema {s schema : Schema} {predicate : Expr}
    (h : Table.filterSchema s predicate = .ok schema) :
    ∃ x, predicate.resolve (Scope.single s) = .ok x := by
  obtain ⟨t, ht, h⟩ := Result.bind_eq_ok_iff.mp h
  split at h
  · cases h
  · split at h
    · cases h
    · rename_i hrows
      exact exists_resolve_of_typeIn (Bool.eq_false_of_not_eq_true hrows) ht

theorem resolve_of_checkSortKey {s : Schema} {k : SortKey Expr}
    (h : Table.checkSortKey s k = .ok ()) : ∃ x, k.expr.resolve (Scope.single s) = .ok x := by
  unfold Table.checkSortKey at h
  split at h
  · cases h
  · rename_i hrows
    obtain ⟨t, ht, -⟩ := Result.map_eq_ok_iff.mp h
    exact exists_resolve_of_typeIn (Bool.eq_false_of_not_eq_true hrows) ht

theorem resolveAll_of_checkSortKey {s : Schema} {keys : List (SortKey Expr)}
    (h : keys.forM (Table.checkSortKey s) = .ok ()) :
    ∃ xs, SortKey.resolveAll (Scope.single s) keys = .ok xs := by
  refine Result.exists_mapM_eq_ok fun k hk => ?_
  obtain ⟨x, hx⟩ := resolve_of_checkSortKey (Result.forM_eq_ok_iff.mp h k hk)
  exact ⟨⟨x, k.descending, k.nullsFirst⟩, by rw [hx]; rfl⟩

theorem resolve_of_groupField {s : Schema} {key : Expr} {field : String × DataType}
    (h : Table.groupField s key = .ok field) : ∃ x, key.resolve (Scope.single s) = .ok x := by
  unfold Table.groupField at h
  split at h
  · cases h
  · rename_i hrows
    obtain ⟨t, ht, -⟩ := Result.map_eq_ok_iff.mp h
    exact exists_resolve_of_typeIn (Bool.eq_false_of_not_eq_true hrows) ht

/-- **An aggregation** is lowered exactly if there is no window in its metrics. -/
theorem aggregateNode_decides {child : OperatorPlan} {groupBy metrics : List Expr} {schema : Schema}
    (n : Nat) (h : Table.aggregateSchema child.schema groupBy metrics = .ok schema) :
    Result.Decides (unaryNode (.aggregate groupBy metrics) schema child n)
      (∀ metric ∈ metrics, metric.hasWindow = false) (fun q => q.1.schema = schema ∧ q.2 = n)
      Error.OfLowering := by
  obtain ⟨keyFields, hkeys, metricFields, hmetrics, -⟩ := by
    simpa only [Table.aggregateSchema, Result.bind_eq_ok_iff] using h
  obtain ⟨keys, hresolved⟩ : ∃ ks,
      Expr.resolveAll (Scope.single child.schema) groupBy = .ok ks := by
    rw [Expr.resolveAll_eq_mapM]
    refine Result.exists_mapM_eq_ok fun key hkey => ?_
    obtain ⟨field, -, hfield⟩ := Result.exists_of_mapM hkeys hkey
    exact resolve_of_groupField hfield
  have haggregates : Result.Decides
      (metrics.mapM (Expr.resolveAggregate (Scope.single child.schema)))
      (∀ metric ∈ metrics, metric.hasWindow = false) (List.Forall₂ (fun _ _ => True) metrics)
      Error.NotExtracted := by
    refine Result.Decides.mapM fun metric hmetric => ?_
    obtain ⟨field, -, hfield⟩ := Result.exists_of_mapM hmetrics hmetric
    exact Expr.resolveAggregate_decides hfield
  have hnode : Result.Decides (do
      let aggregates ← metrics.mapM (Expr.resolveAggregate (Scope.single child.schema))
      return node (.aggregate ⟨keys, aggregates⟩) schema [child])
      (∀ metric ∈ metrics, metric.hasWindow = false) (fun q => q.schema = schema)
      Error.NotExtracted := haggregates.bind_pure fun _ _ => rfl
  simp only [unaryNode, hresolved, Result.ok_bind]
  exact (hnode.mono_error fun _ => .inl).map fun _ hq => ⟨hq, rfl⟩

/-- **Lowering a checked plan** succeeds exactly if every window and aggregate can be taken out, and
it takes up a name for every outermost window. -/
theorem lower_decides {p : Plan} (h : p.Checked) : ∀ n : Nat,
    Result.Decides (lower p n) (p.Extractable n)
      (fun q => q.1.schema = p.schema ∧ q.2 = n + p.windowCount) Error.OfLowering := by
  -- The checks were made over the plan's schemas: what an input is lowered to must have the same
  -- one, and the number of names that it took up is where those of its reader begin.
  induction h with
  | scan | sqlQuery | values =>
    intro n
    exact .of_ok rfl ⟨rfl, rfl⟩ trivial
  | @project exprs ref schema c hc hfields ih =>
    intro n
    refine lower_unary_decides rfl (ih n) fun child hchild => ?_
    rw [← hchild] at hfields ⊢
    refine (projectNode_decides (n + c.windowCount) hfields).mono ?_
    rintro _ ⟨hcount, rs, w, xs, hprojected⟩
    exact ⟨by rw [hprojected.eq]; rfl, hcount⟩
  | @filter predicate ref schema c hc hschema ih =>
    intro n
    refine lower_simple_decides rfl (ih n) fun child hchild => ?_
    obtain ⟨x, hx⟩ := resolve_of_filterSchema hschema
    refine ⟨.filter x, ?_⟩
    simp only [unaryNode, hchild, hx]
    rfl
  | @join j ref schema l r suffixes selfRef predicate kind hl hr hne hplan ihl ihr =>
    intro n
    obtain ⟨join, hjoin⟩ := JoinInputs.exists_resolve_of_plan hne hplan
    have hlower : lower (.node (.join j) ref schema [l, r]) n = (do
        let left ← lower l n
        let right ← lower r left.2
        return (node (.join join) schema [left.1, right.1], right.2)) := by
      have hstep : lower (.node (.join j) ref schema [l, r]) = (do
          let left ← lower l
          let right ← lower r
          let join ← Lowering.ofResult (j.resolve l r)
          return node (.join join) schema [left, right]) := by
        rw [lower]
      simp only [hstep, Lowering.bind_run, hjoin]
      rfl
    rw [hlower]
    refine ((ihl n).bind fun left hleft => ?_).congr Iff.rfl
    rw [hleft.2]
    refine (ihr _).bind_pure fun right hright => ⟨rfl, ?_⟩
    rw [hright.2, Plan.windowCount, Nat.add_assoc]
  | @aggregate groupBy metrics ref schema c hc hschema ih =>
    intro n
    have hop : ∀ child : OperatorPlan, child.schema = c.schema →
        Result.Decides (unaryNode (.aggregate groupBy metrics) schema child (n + c.windowCount))
          (∀ metric ∈ metrics, metric.hasWindow = false)
          (fun q => q.1.schema = schema ∧ q.2 = n + c.windowCount + 0) Error.OfLowering :=
      fun child hchild => aggregateNode_decides _ (hchild ▸ hschema)
    exact lower_unary_decides rfl (ih n) hop
  | @order keys ref c hc hkeys ih =>
    intro n
    refine lower_simple_decides rfl (ih n) fun child hchild => ?_
    obtain ⟨rkeys, hrkeys⟩ := resolveAll_of_checkSortKey hkeys
    refine ⟨.sort rkeys, ?_⟩
    simp only [unaryNode, hchild, hrkeys]
    rfl
  | @limit limit offset ref c hc ih =>
    intro n
    exact lower_simple_decides rfl (ih n) fun child _ => ⟨.limit limit offset, rfl⟩

end OperatorPlan

/-! ### Tables -/

namespace Table

/-- **Which tables have a tree of operators**: exactly those of which every window and aggregate can
be taken out. Where there is none, a window was left in an expression, or a column has the name that
is made up for a window. -/
theorem Built.ofPlan_isOk_iff {next : TableRef} {t : Table} (h : Built next t) :
    ((∃ p, OperatorPlan.ofPlan t.root = .ok p ∧ p.schema = t.schema) ↔ t.root.Extractable 0) ∧
      ∀ e, OperatorPlan.ofPlan t.root = .error e → e.OfLowering := by
  have hlower := OperatorPlan.lower_decides h.sound.checked 0
  have hplan : Result.Decides (OperatorPlan.ofPlan t.root) (t.root.Extractable 0)
      (fun p => p.schema = t.schema) Error.OfLowering := hlower.bind_pure fun _ hq => hq.1
  refine ⟨⟨fun ⟨p, hp, _⟩ => hplan.isOk_iff.mp ⟨p, hp⟩, hplan.ok⟩, fun e he => ?_⟩
  exact hplan.bad_of_error he

/-- A window in a larger expression, over a table with a column that has the second name. -/
theorem Built.ofPlan_isOk_secondName :
    let place : Expr := .window .rowNumber none [.col "__window_1"] []
    let exprs : List Expr := [.aliased "x" (.arith .add place (.col "__window_1"))]
    let scanned : Plan := .node (.scan "t") ⟨0⟩ ⟨[("__window_1", .int64)], by decide⟩ []
    let t : Table := ⟨.node (.project exprs) ⟨1⟩ ⟨[("x", .int64)], by decide⟩ [scanned], .standard⟩
    Built ⟨2⟩ t ∧ ∃ p, OperatorPlan.ofPlan t.root = .ok p ∧ p.schema = t.schema := by
  intro place exprs scanned t
  have hscan : (Table.scan "t" scanned.schema).Gives ⟨0⟩ ⟨scanned, .standard⟩ ⟨1⟩ := rfl
  have hselect : (Table.select ⟨scanned, .standard⟩ exprs).Gives ⟨1⟩ t ⟨2⟩ := rfl
  have hbuilt : Built ⟨2⟩ t := .select (.scan hscan) hselect
  refine ⟨hbuilt, (ofPlan_isOk_iff hbuilt).1.mpr ⟨trivial, fun w hw => ?_, fun i hi => ?_⟩⟩
  · rw [List.mem_singleton.mp hw]
    have hkeys : ∀ e ∈ [Expr.col "__window_1"], e.Plain :=
      List.forall_mem_singleton.mpr ⟨rfl, rfl⟩
    exact ⟨fun _ hf => (nomatch hf), hkeys, fun _ hk => (nomatch hk)⟩
  · obtain rfl : i = 0 := Nat.lt_one_iff.mp hi
    decide

/-- **Not every table has a tree of operators**: not one with a window in a window, nor one with a
window in a metric, nor one where the name of a window is that of a column. -/
theorem Built.not_ofPlan_isOk :
    let scanned : Plan := .node (.scan "t") ⟨0⟩ ⟨[("__window_0", .int64)], by decide⟩ []
    let inWindow : List Expr := [.aliased "x" (.window (.aggregate .sum) (some .rowNumber) [] [])]
    let inMetric : List Expr := [.aliased "x" (.aggregate .sum (some .rowNumber))]
    let single : List Expr := [.aliased "x" .rowNumber]
    let sum : Schema := ⟨[("x", .int64)], by decide⟩
    let place : Schema := ⟨[("x", DataType.int64.nonNull)], by decide⟩
    let nested : Table := ⟨.node (.project inWindow) ⟨1⟩ sum [scanned], .standard⟩
    let measured : Table := ⟨.node (.aggregate [] inMetric) ⟨1⟩ sum [scanned], .standard⟩
    let taken : Table := ⟨.node (.project single) ⟨1⟩ place [scanned], .standard⟩
    (∀ t ∈ [nested, measured, taken], Built ⟨2⟩ t) ∧
      (∀ t ∈ [nested, measured],
        OperatorPlan.ofPlan t.root = .error (.typing (.notScalar .rowNumber))) ∧
      OperatorPlan.ofPlan taken.root = .error (.schema (.duplicateColumn "__window_0")) := by
  intro scanned inWindow inMetric single sum place nested measured taken
  have hscan : (Table.scan "t" scanned.schema).Gives ⟨0⟩ ⟨scanned, .standard⟩ ⟨1⟩ := rfl
  have hnested : (Table.select ⟨scanned, .standard⟩ inWindow).Gives ⟨1⟩ nested ⟨2⟩ := rfl
  have hmeasured : (Table.aggregate ⟨scanned, .standard⟩ [] inMetric).Gives ⟨1⟩ measured ⟨2⟩ := rfl
  have htaken : (Table.select ⟨scanned, .standard⟩ single).Gives ⟨1⟩ taken ⟨2⟩ := rfl
  simp only [List.forall_mem_cons]
  have hbuilt : Built ⟨1⟩ ⟨scanned, .standard⟩ := .scan hscan
  exact ⟨⟨.select hbuilt hnested, .aggregate hbuilt hmeasured, .select hbuilt htaken,
    fun _ h => (nomatch h)⟩, ⟨rfl, rfl, fun _ h => (nomatch h)⟩, rfl⟩

end Table

end TableQuery
