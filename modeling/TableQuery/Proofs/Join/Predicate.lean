import Mathlib.Data.List.GetD
import TableQuery.Operator.Lower
import TableQuery.Proofs.DataType
import TableQuery.Proofs.Expr.Placement
import TableQuery.Proofs.Scalar.Swap
import TableQuery.Relation.JoinPlanner

/-! # Splitting a join predicate

The planner turns a predicate into conditions and a residual. What the predicate says without being
split is given by `JoinInputs.place`: every column is read in the row of the left columns and then
the right ones, on the side that the planner assigns it to. The main statement, `plan_iff_split`, is
that on every pair of rows the predicate is true exactly when all conditions hold and the residual,
if there is one, is true.

A conjunct that becomes a condition is an equality of two placed columns, possibly the other way
round (`trueOn_iff_condition`). The residual is looked up a second time, by tables; its columns are
then found where they were placed before (`qualify_resolveWith_iff`). That it can be looked up at
all follows from the type it has over the columns of both sides (`qualifyResidual_spec`). -/

namespace TableQuery

/-! ### Places of columns -/

/-- The value in the column of a name. -/
def Schema.valueAt (s : Schema) (row : Row) (name : String) : Scalar :=
  match s.index? name with
  | some i => row.getD i .null
  | none => .null

namespace Scope

/-- The place of a column of the relation. -/
def place (s : Scope) (name : String) : Result (Nat × DataType) :=
  match s.find? name with
  | some p => .ok p
  | none => .error (.typing (.unresolvedColumn name))

theorem find?_eq_some_iff {s : Scope} {name : String} {k : Nat} {t : DataType} :
    s.find? name = some (k, t) ↔ ∃ i, k = s.offset + i ∧ s.schema.fields[i]? = some (name, t) := by
  simp only [find?, ← Schema.index?_type?_iff]
  cases s.schema.index? name <;> cases s.schema.type? name <;> simp [eq_comm]

theorem place_eq_ok_iff {s : Scope} {name : String} {k : Nat} {t : DataType} :
    s.place name = .ok (k, t) ↔ ∃ i, k = s.offset + i ∧ s.schema.fields[i]? = some (name, t) := by
  rw [← find?_eq_some_iff, place]
  cases s.find? name <;> simp

end Scope

namespace JoinInputs

variable (inputs : JoinInputs)

/-- The relation of a side, in the row of the left columns and then the right ones. -/
def scopeOf : Side → Scope
  | .left => ⟨some inputs.leftRef, inputs.left, 0⟩
  | .right => ⟨some inputs.rightRef, inputs.right, inputs.left.size⟩

/-- **A column is placed on its side.** -/
def place : Placement := fun c => do (inputs.scopeOf (← inputs.side c)).place c.name

/-- Both sides as the scopes of a residual. -/
def scopes : List Scope := Scope.join inputs.leftRef inputs.left inputs.rightRef inputs.right

variable {inputs}

theorem contains_of_side {c : ColumnRef} {s : Side} (h : inputs.side c = .ok s) :
    (inputs.scopeOf s).schema.contains c.name = true := by
  unfold side at h
  dsimp only at h
  split at h
  · cases h
  · split at h
    · rename_i hleft
      cases h
      exact hleft.2
    · split at h
      · rename_i hright
        cases h
        exact hright.2
      · split at h <;> cases h <;> assumption

theorem side_eq_error_of_isSelfColumn {c : ColumnRef} (h : inputs.isSelfColumn c = true) :
    inputs.side c = .error (.join (.ambiguousSelf c.name)) := by
  unfold side
  rw [if_pos h]

theorem qualify_eq_ok_iff {c : ColumnRef} {e : Expr} : inputs.qualify c = .ok e ↔
    ∃ s, inputs.side c = .ok s ∧ e = .column (inputs.scopeOf s).table c.name := by
  rw [qualify, Result.bind_eq_ok_iff]
  refine exists_congr fun s => and_congr_right fun _ => ?_
  cases s <;> simp [scopeOf, eq_comm]

theorem place_of_side {c : ColumnRef} {s : Side} (h : inputs.side c = .ok s) :
    inputs.place c = (inputs.scopeOf s).place c.name := by
  rw [place, h, Result.ok_bind]

/-! ### The columns of a residual -/

/-- The side that a qualified column names. -/
def namedSide (inputs : JoinInputs) (c : ColumnRef) : Side :=
  if c.table = some inputs.leftRef then .left else .right

/-- Every column is placed on the side that its table names. -/
def namedPlace (inputs : JoinInputs) : Placement := fun c =>
  (inputs.scopeOf (inputs.namedSide c)).place c.name

variable (hrefs : inputs.leftRef ≠ inputs.rightRef)
include hrefs

theorem namedSide_scopeOf (s : Side) (name : String) :
    inputs.namedSide ⟨(inputs.scopeOf s).table, name⟩ = s := by
  cases s with
  | left => simp [namedSide, scopeOf]
  | right => simp [namedSide, scopeOf, Ne.symm hrefs]

/-- A column that carries the table of its side is found there. -/
theorem placement_scopes {s : Side} {name : String}
    (h : (inputs.scopeOf s).schema.contains name = true) :
    Scope.placement inputs.scopes ⟨(inputs.scopeOf s).table, name⟩ =
      (inputs.scopeOf s).place name := by
  have hfilter :
      inputs.scopes.filter (·.table = (inputs.scopeOf s).table) = [inputs.scopeOf s] := by
    cases s <;> simp [scopes, Scope.join, scopeOf, hrefs, Ne.symm hrefs]
  obtain ⟨p, hp⟩ : ∃ p, (inputs.scopeOf s).find? name = some p := by
    obtain ⟨i, t, hi⟩ := Schema.contains_iff.mp h
    exact ⟨_, Scope.find?_eq_some_iff.mpr ⟨i, rfl, hi⟩⟩
  have htable : (inputs.scopeOf s).table.isSome = true := by cases s <;> rfl
  rw [Scope.placement, Scope.place, Scope.resolve?]
  simp only [htable, if_true, hfilter, List.findSome?_cons, hp, Option.some_or]

/-- **A qualified column is found where the column was placed.** -/
theorem qualify_resolveWith_iff {c : ColumnRef} {q : Expr} (h : inputs.qualify c = .ok q)
    (x : RowExpr) : q.resolveWith (Scope.placement inputs.scopes) = .ok x ↔
      (Expr.ofColumn c).resolveWith inputs.place = .ok x := by
  obtain ⟨s, hs, rfl⟩ := qualify_eq_ok_iff.mp h
  rw [Expr.ofColumn, Expr.resolveWith, Expr.resolveWith, place_of_side hs,
    placement_scopes hrefs (contains_of_side hs)]

theorem qualify_resolveWith_named_iff {c : ColumnRef} {q : Expr} (h : inputs.qualify c = .ok q)
    (x : RowExpr) : q.resolveWith inputs.namedPlace = .ok x ↔
      (Expr.ofColumn c).resolveWith inputs.place = .ok x := by
  obtain ⟨s, hs, rfl⟩ := qualify_eq_ok_iff.mp h
  rw [Expr.ofColumn, Expr.resolveWith, Expr.resolveWith, place_of_side hs, namedPlace,
    namedSide_scopeOf hrefs]

omit hrefs

/-- The columns of both sides stand one after the other in the combined schema. -/
theorem fields_sidedSchema_iff {sided : Schema} (h : inputs.sidedSchema = .ok sided)
    {c : ColumnRef} {name : String} (hc : inputs.sidedColumn c = .ok (.col name)) {k : Nat}
    {t : DataType} : sided.fields[k]? = some (name, t) ↔ inputs.namedPlace c = .ok (k, t) := by
  have hdistinct : ∀ m n : String, "left." ++ m ≠ "right." ++ n := by
    intro m n hmn
    have hlist := congrArg String.toList hmn
    simp at hlist
  rw [namedPlace, Scope.place_eq_ok_iff, Schema.ofFields_eq_ok_iff.mp h, namedSide]
  have htag : ∀ (tag : String) (field : Option (String × DataType)),
      field.map (fun p => (tag ++ p.1, p.2)) = some (tag ++ c.name, t) ↔
        field = some (c.name, t) := by
    intro tag field
    cases field <;> simp [Prod.ext_iff]
  unfold sidedColumn at hc
  split at hc <;> cases hc
  · rename_i hleft
    rw [if_pos hleft]
    simp only [scopeOf, Nat.zero_add, exists_eq_left']
    rcases Nat.lt_or_ge k inputs.left.fields.length with hk | hk
    · rw [List.getElem?_append_left (by simpa using hk), List.getElem?_map, htag]
    · rw [List.getElem?_append_right (by simpa using hk), List.getElem?_map,
        List.getElem?_eq_none hk]
      simp only [Option.map_eq_some_iff, Prod.mk.injEq, reduceCtorEq, iff_false]
      rintro ⟨field, -, hname, -⟩
      exact hdistinct _ _ hname.symm
  · rename_i hright
    rw [if_neg hright]
    simp only [scopeOf, Schema.size]
    rcases Nat.lt_or_ge k inputs.left.fields.length with hk | hk
    · rw [List.getElem?_append_left (by simpa using hk), List.getElem?_map]
      constructor
      · intro hfield
        obtain ⟨field, -, hname⟩ := Option.map_eq_some_iff.mp hfield
        exact absurd (Prod.ext_iff.mp hname).1 (hdistinct _ _)
      · rintro ⟨i, rfl, -⟩
        omega
    · rw [List.getElem?_append_right (by simpa using hk), List.getElem?_map, List.length_map, htag]
      constructor
      · exact fun hfield => ⟨_, by omega, hfield⟩
      · rintro ⟨i, rfl, hfield⟩
        rwa [Nat.add_sub_cancel_left]

theorem sidedColumn_resolveWith_iff {sided : Schema} (h : inputs.sidedSchema = .ok sided)
    {c : ColumnRef} {q : Expr} (hc : inputs.sidedColumn c = .ok q) (x : RowExpr) :
    q.resolveWith (Scope.placement (Scope.single sided)) = .ok x ↔
      (Expr.ofColumn c).resolveWith inputs.namedPlace = .ok x := by
  obtain ⟨name, rfl⟩ : ∃ name, q = .col name := by
    cases hc
    exact ⟨_, rfl⟩
  have hplace : ∀ p, Scope.placement (Scope.single sided) ⟨none, name⟩ = .ok p ↔
      inputs.namedPlace c = .ok p := by
    rintro ⟨k, t⟩
    have hsingle : Scope.placement (Scope.single sided) ⟨none, name⟩ =
        Scope.place ⟨none, sided, 0⟩ name := by
      rw [Scope.placement, Scope.place, Scope.resolve?, Scope.single, List.findSome?_singleton]
      rfl
    rw [hsingle, Scope.place_eq_ok_iff, ← fields_sidedSchema_iff h hc]
    simp
  simp only [Expr.col, Expr.ofColumn, Expr.resolveWith, Result.map_eq_ok_iff, hplace]

/-- **The residual is the predicate on qualified columns.** -/
theorem qualifyResidual_spec (hrefs : inputs.leftRef ≠ inputs.rightRef) {e q : Expr}
    (h : inputs.qualifyResidual e = .ok q) : e.Resolves inputs.place ∧
      ∀ x, q.resolve inputs.scopes = .ok x ↔ e.resolveWith inputs.place = .ok x := by
  obtain ⟨q', hq, h⟩ := Result.bind_eq_ok_iff.mp h
  obtain ⟨sided, hsided, h⟩ := Result.bind_eq_ok_iff.mp h
  obtain ⟨s, hs, h⟩ := Result.bind_eq_ok_iff.mp h
  obtain ⟨t, ht, h⟩ := Result.bind_eq_ok_iff.mp h
  split at h
  · cases h
  · split at h
    · cases h
    · rename_i hplain
      cases h
      have hqp : q.Plain := by simpa [Expr.Plain] using hplain
      have hsp : s.Plain := hqp.mapColumnsM (fun c e hc => by cases hc; exact ⟨rfl, rfl⟩) hs
      obtain ⟨x, hx, -⟩ := Expr.resolve_of_typeIn hsp ht
      rw [Expr.resolve_eq_resolveWith, Expr.resolveWith_mapColumnsM_iff
        (fun c q hc => sidedColumn_resolveWith_iff hsided hc) hs,
        Expr.resolveWith_mapColumnsM_iff
        (fun c q hc => qualify_resolveWith_named_iff hrefs hc) hq] at hx
      refine ⟨⟨x, hx⟩, fun y => ?_⟩
      rw [Expr.resolve_eq_resolveWith, Expr.resolveWith_mapColumnsM_iff
        (fun c q hc => qualify_resolveWith_iff hrefs hc) hq]

/-! ### Conditions -/

/-- What a conjunct that becomes a condition is. -/
theorem eq_compare_of_conditionOfConjunct {e : Expr} {c : JoinCondition}
    (h : inputs.conditionOfConjunct e = .ok (some c)) :
    ∃ a b ca cb, e = .compare .eq a b ∧ a.unaliased = Expr.ofColumn ca ∧
      b.unaliased = Expr.ofColumn cb ∧
      (inputs.isSelfColumn ca = true ∨
        (inputs.side ca = .ok .left ∧ inputs.side cb = .ok .right ∧ c = ⟨ca.name, cb.name⟩) ∨
        (inputs.side ca = .ok .right ∧ inputs.side cb = .ok .left ∧ c = ⟨cb.name, ca.name⟩)) := by
  unfold conditionOfConjunct at h
  split at h
  · rename_i a b
    split at h
    · rename_i s x t y ha hb
      refine ⟨a, b, ⟨s, x⟩, ⟨t, y⟩, rfl, ha, hb, ?_⟩
      split at h
      · rename_i hself
        exact .inl (Bool.and_eq_true_iff.mp hself).1
      · obtain ⟨sa, hsa, h⟩ := Result.bind_eq_ok_iff.mp h
        obtain ⟨sb, hsb, h⟩ := Result.bind_eq_ok_iff.mp h
        cases sa <;> cases sb <;> cases h
        · exact .inr (.inl ⟨hsa, hsb, rfl⟩)
        · exact .inr (.inr ⟨hsa, hsb, rfl⟩)
    · cases h
  · cases h

/-- The value of a column of a side in a pair of rows. -/
def valueOn (inputs : JoinInputs) (l r : Row) : Side → String → Scalar
  | .left, name => inputs.left.valueAt l name
  | .right, name => inputs.right.valueAt r name

theorem eval_of_side {c : ColumnRef} {s : Side} {x : RowExpr} {l r : Row}
    (hs : inputs.side c = .ok s) (hx : (Expr.ofColumn c).resolveWith inputs.place = .ok x)
    (hl : l.length = inputs.left.size) :
    x.eval (l ++ r) = .ok (inputs.valueOn l r s c.name) := by
  obtain ⟨⟨k, t⟩, hk, rfl⟩ := Result.map_eq_ok_iff.mp hx
  rw [place_of_side hs] at hk
  obtain ⟨i, rfl, hi⟩ := Scope.place_eq_ok_iff.mp hk
  rw [RowExpr.eval]
  cases s with
  | left =>
    have hindex : inputs.left.index? c.name = some i := (Schema.index?_type?_iff.mpr hi).1
    have hlt : i < inputs.left.size := (List.getElem?_eq_some_iff.mp hi).1
    rw [valueOn, Schema.valueAt, hindex]
    simp only [scopeOf, Nat.zero_add]
    rw [List.getD_append _ _ _ _ (by rw [hl]; exact hlt)]
  | right =>
    have hindex : inputs.right.index? c.name = some i := (Schema.index?_type?_iff.mpr hi).1
    rw [valueOn, Schema.valueAt, hindex]
    simp only [scopeOf]
    rw [List.getD_append_right _ _ _ _ (by omega), hl, Nat.add_sub_cancel_left]

theorem trueOn_compare_iff {a b : Expr} {ca cb : ColumnRef} {sa sb : Side} {l r : Row}
    (ha : a.unaliased = Expr.ofColumn ca) (hb : b.unaliased = Expr.ofColumn cb)
    (hsa : inputs.side ca = .ok sa) (hsb : inputs.side cb = .ok sb)
    (hl : l.length = inputs.left.size)
    (hres : (Expr.compare .eq a b).Resolves inputs.place) :
    (Expr.compare .eq a b).TrueOn inputs.place (l ++ r) ↔
      (inputs.valueOn l r sa ca.name).compareBy .eq (inputs.valueOn l r sb cb.name) =
        .boolean true := by
  obtain ⟨x, hx⟩ := hres
  simp only [Expr.TrueOn, hx, Except.ok.injEq, exists_eq_left']
  simp only [Expr.resolveWith, Result.bind_eq_ok_iff] at hx
  obtain ⟨xa, hxa, xb, hxb, t, -, hx⟩ := hx
  cases hx
  rw [← Expr.resolveWith_unaliased, ha] at hxa
  rw [← Expr.resolveWith_unaliased, hb] at hxb
  rw [RowExpr.eval, eval_of_side hsa hxa hl, eval_of_side hsb hxb hl]
  simp

/-- **The condition of a pair of rows**: its columns compare as equal. -/
def ConditionHolds (inputs : JoinInputs) (l r : Row) (c : JoinCondition) : Prop :=
  (inputs.left.valueAt l c.left).compareBy .eq (inputs.right.valueAt r c.right) = .boolean true

/-- **A conjunct is true when its condition holds.** -/
theorem trueOn_iff_condition {e : Expr} {c : JoinCondition} {l r : Row}
    (h : inputs.conditionOfConjunct e = .ok (some c)) (hl : l.length = inputs.left.size)
    (hres : e.Resolves inputs.place) :
    e.TrueOn inputs.place (l ++ r) ↔ inputs.ConditionHolds l r c := by
  obtain ⟨a, b, ca, cb, rfl, ha, hb, hside⟩ := eq_compare_of_conditionOfConjunct h
  rcases hside with hself | ⟨hx, hy, rfl⟩ | ⟨hx, hy, rfl⟩
  · -- A column of a table joined with itself has no side.
    obtain ⟨z, hz⟩ := hres
    simp only [Expr.resolveWith, Result.bind_eq_ok_iff] at hz
    obtain ⟨xa, hxa, -⟩ := hz
    rw [← Expr.resolveWith_unaliased, ha, Expr.ofColumn, Expr.resolveWith, place,
      side_eq_error_of_isSelfColumn hself] at hxa
    cases hxa
  · exact trueOn_compare_iff ha hb hx hy hl hres
  · rw [trueOn_compare_iff ha hb hx hy hl hres, Scalar.compareBy_eq_true_comm]
    rfl

theorem resolves_compare {a b : Expr} {ca cb : ColumnRef} {sa sb : Side} {s t : DataType}
    (ha : a.unaliased = Expr.ofColumn ca) (hb : b.unaliased = Expr.ofColumn cb)
    (hsa : inputs.side ca = .ok sa) (hsb : inputs.side cb = .ok sb)
    (hs : (inputs.scopeOf sa).schema.type? ca.name = some s)
    (ht : (inputs.scopeOf sb).schema.type? cb.name = some t) (hst : s.isComparable t = true) :
    (Expr.compare .eq a b).Resolves inputs.place := by
  have hcolumn : ∀ {e : Expr} {c : ColumnRef} {side : Side} {u : DataType},
      e.unaliased = Expr.ofColumn c → inputs.side c = .ok side →
      (inputs.scopeOf side).schema.type? c.name = some u →
        ∃ k, e.resolveWith inputs.place = .ok (.column k u) := by
    intro e c side u he hside hu
    obtain ⟨i, hi, -⟩ := Schema.index?_of_type? hu
    have hplace := Scope.place_eq_ok_iff.mpr ⟨i, rfl, Schema.index?_type?_iff.mp ⟨hi, hu⟩⟩
    refine ⟨(inputs.scopeOf side).offset + i, ?_⟩
    rw [← Expr.resolveWith_unaliased, he, Expr.ofColumn, Expr.resolveWith, place_of_side hside,
      hplace]
    rfl
  obtain ⟨i, hi⟩ := hcolumn ha hsa hs
  obtain ⟨k, hk⟩ := hcolumn hb hsb ht
  refine ⟨.compare .eq (.column i s) (.column k t) (.base .boolean (s.nullable || t.nullable)), ?_⟩
  rw [Expr.resolveWith, hi, Result.ok_bind, hk, Result.ok_bind, CompareOp.resultType, RowExpr.type,
    RowExpr.type, if_pos hst]
  rfl

/-- A condition of comparable keys comes from a conjunct that resolves. -/
theorem resolves_of_checkKeyTypes {e : Expr} {c : JoinCondition} (hself : inputs.selfRef = none)
    (h : inputs.conditionOfConjunct e = .ok (some c)) (hkeys : inputs.checkKeyTypes c = .ok ()) :
    e.Resolves inputs.place := by
  obtain ⟨a, b, ca, cb, rfl, ha, hb, hside⟩ := eq_compare_of_conditionOfConjunct h
  obtain ⟨tl, htl, hkeys⟩ := Result.bind_eq_ok_iff.mp hkeys
  obtain ⟨tr, htr, hkeys⟩ := Result.bind_eq_ok_iff.mp hkeys
  rw [Schema.typeOf_eq_ok_iff] at htl htr
  split at hkeys
  · rename_i hcomp
    rcases hside with hcol | ⟨hx, hy, rfl⟩ | ⟨hx, hy, rfl⟩
    · cases ca with
      | mk table name => cases table <;> simp [isSelfColumn, hself] at hcol
    · exact resolves_compare ha hb hx hy htl htr hcomp
    · rw [DataType.isComparable_comm] at hcomp
      exact resolves_compare ha hb hx hy htr htl hcomp
  · cases hkeys

/-! ### The split -/

/-- **Conjuncts are conditions or are left over.** -/
theorem forall_splitConjuncts_iff {T : Expr → Prop} {C : JoinCondition → Prop} :
    ∀ {es : List Expr} {conditions : List JoinCondition} {rest : List Expr},
      (∀ e ∈ es, ∀ c ∈ conditions, inputs.conditionOfConjunct e = .ok (some c) → (T e ↔ C c)) →
      inputs.splitConjuncts es = .ok (conditions, rest) →
      ((∀ e ∈ es, T e) ↔ (∀ c ∈ conditions, C c) ∧ ∀ e ∈ rest, T e)
  | [], _, _, _, h => by
    cases h
    simp
  | e :: es, conditions, rest, hTC, h => by
    obtain ⟨condition, hc, h⟩ := Result.bind_eq_ok_iff.mp h
    obtain ⟨⟨conditions', rest'⟩, hsplit, h⟩ := Result.bind_eq_ok_iff.mp h
    cases condition with
    | none =>
      cases h
      have ih := forall_splitConjuncts_iff (fun d hd => hTC d (List.mem_cons_of_mem e hd)) hsplit
      simp only [List.forall_mem_cons, ih]
      exact and_left_comm
    | some c =>
      cases h
      have ih := forall_splitConjuncts_iff (fun d hd k hk =>
        hTC d (List.mem_cons_of_mem e hd) k (List.mem_cons_of_mem c hk)) hsplit
      rw [List.forall_mem_cons, List.forall_mem_cons, ih,
        hTC e List.mem_cons_self c List.mem_cons_self hc, and_assoc]

theorem trueOn_iff_eval {e : Expr} {place : Placement} {x : RowExpr}
    (h : e.resolveWith place = .ok x) (row : Row) :
    e.TrueOn place row ↔ x.eval row = .ok (.boolean true) := by
  simp [Expr.TrueOn, h]

/-- **What is left over is the residual**: it can be looked up, and it is true when all conjuncts
are that it was made of. -/
theorem residual_spec (hrefs : inputs.leftRef ≠ inputs.rightRef) {rest : List Expr}
    {residual : Option Expr}
    (h : (Expr.conjunction? rest).mapM inputs.qualifyResidual = .ok residual) :
    (∀ d ∈ rest, d.Resolves inputs.place) ∧
      ∃ ys : Option RowExpr, residual.mapM (Expr.resolve inputs.scopes) = .ok ys ∧ ∀ row,
        (∀ d ∈ rest, d.TrueOn inputs.place row) ↔ ∀ y ∈ ys, y.eval row = .ok (.boolean true) := by
  cases hrest : Expr.conjunction? rest with
  | none =>
    rw [hrest] at h
    cases h
    have hnil : rest = [] := by cases rest <;> first | rfl | cases hrest
    subst hnil
    exact ⟨by simp, none, rfl, by simp⟩
  | some d =>
    rw [hrest, Option.mapM_some] at h
    obtain ⟨q, hq, hsome⟩ := Result.map_eq_ok_iff.mp h
    subst hsome
    obtain ⟨⟨y, hy⟩, hiff⟩ := qualifyResidual_spec hrefs hq
    refine ⟨(Expr.forall_conjunction?_iff (Expr.conjunctive_resolves _) hrest).mp ⟨y, hy⟩,
      some y, ?_, fun row => ?_⟩
    · rw [Option.mapM_some, (hiff y).mpr hy]
      rfl
    · rw [← Expr.forall_conjunction?_iff (Expr.conjunctive_trueOn _ row) hrest,
        trueOn_iff_eval hy]
      simp

/-- **Splitting a predicate keeps its meaning.** -/
theorem plan_iff_split {e : Expr} {kind : JoinKind} {j : Join} {schema : Schema}
    (hrefs : inputs.leftRef ≠ inputs.rightRef)
    (h : inputs.plan (.expression e) kind = .ok (j, schema)) :
    (inputs.selfRef = none → ∃ x, e.resolveWith inputs.place = .ok x) ∧
      ∃ residual : Option RowExpr, j.residual.mapM (Expr.resolve inputs.scopes) = .ok residual ∧
        ∀ x, e.resolveWith inputs.place = .ok x → ∀ l r : Row, l.length = inputs.left.size →
          (x.eval (l ++ r) = .ok (.boolean true) ↔
            (∀ c ∈ j.conditions, inputs.ConditionHolds l r c) ∧
              ∀ y ∈ residual, y.eval (l ++ r) = .ok (.boolean true)) := by
  obtain ⟨⟨conditions, residual⟩, hsplit, h⟩ := Result.bind_eq_ok_iff.mp h
  obtain ⟨⟨⟩, hkeys, h⟩ := Result.bind_eq_ok_iff.mp h
  obtain ⟨⟨outputs, planned⟩, -, h⟩ := Result.bind_eq_ok_iff.mp h
  cases h
  obtain ⟨⟨conditions', rest⟩, hconj, hsplit⟩ := Result.bind_eq_ok_iff.mp hsplit
  obtain ⟨residual', hres, hsplit⟩ := Result.bind_eq_ok_iff.mp hsplit
  cases hsplit
  obtain ⟨hrest, ys, hys, htrue⟩ := residual_spec hrefs hres
  refine ⟨fun hself => ?_, ys, hys, fun x hx l r hl => ?_⟩
  · rw [← Expr.Resolves, ← Expr.forall_conjuncts_iff (Expr.conjunctive_resolves _),
      forall_splitConjuncts_iff (C := fun _ => True) (fun d _ c hc hd => ?_) hconj]
    · exact ⟨fun _ _ => trivial, hrest⟩
    · exact iff_true_intro
        (resolves_of_checkKeyTypes hself hd (Result.forM_eq_ok_iff.mp hkeys c hc))
  · have hall := (Expr.forall_conjuncts_iff (Expr.conjunctive_resolves inputs.place) e).mpr ⟨x, hx⟩
    rw [← trueOn_iff_eval hx, ← Expr.forall_conjuncts_iff (Expr.conjunctive_trueOn _ _),
      forall_splitConjuncts_iff (fun d hd c _ hdc => trueOn_iff_condition hdc hl (hall d hd)) hconj,
      htrue]

/-- An equality written from right to left, one side under a name, and an order inside of a nested
conjunction: true of the first pair of rows, null on the second. -/
theorem plan_iff_split_flipped :
    let n (v : Int64Value) : Scalar := .int .int64 v
    let left : Schema := ⟨[("id", .int64), ("x", .int64)], by decide⟩
    let right : Schema := ⟨[("y", .int64), ("id", .int64)], by decide⟩
    let inputs : JoinInputs := ⟨⟨0⟩, left, ⟨1⟩, right, .standard, none⟩
    let e := Expr.conj .and [.compare .eq (.column (some ⟨1⟩) "id")
      (.aliased "key" (.column (some ⟨0⟩) "id")), .conj .and [.compare .lt (.col "x") (.col "y")]]
    let l : Row := [n ⟨1, by decide, by decide⟩, n ⟨2, by decide, by decide⟩]
    let r₁ : Row := [n ⟨3, by decide, by decide⟩, n ⟨1, by decide, by decide⟩]
    let r₂ : Row := [.null, n ⟨1, by decide, by decide⟩]
    inputs.leftRef ≠ inputs.rightRef ∧ inputs.selfRef = none ∧ l.length = inputs.left.size ∧
      ∃ j schema x residual, inputs.plan (.expression e) .inner = .ok (j, schema) ∧
        j.conditions = [⟨"id", "id"⟩] ∧ e.resolveWith inputs.place = .ok x ∧
        j.residual.mapM (Expr.resolve inputs.scopes) = .ok residual ∧
        x.eval (l ++ r₁) = .ok (.boolean true) ∧ x.eval (l ++ r₂) = .ok .null ∧
        ∀ r ∈ [r₁, r₂], (x.eval (l ++ r) = .ok (.boolean true) ↔
          (∀ c ∈ j.conditions, inputs.ConditionHolds l r c) ∧
            ∀ y ∈ residual, y.eval (l ++ r) = .ok (.boolean true)) := by
  intro n left right inputs e l r₁ r₂
  have hrefs : inputs.leftRef ≠ inputs.rightRef := by decide
  obtain ⟨j, schema, hplan, hconditions⟩ : ∃ j schema,
      inputs.plan (.expression e) .inner = .ok (j, schema) ∧ j.conditions = [⟨"id", "id"⟩] :=
    ⟨_, _, rfl, rfl⟩
  obtain ⟨x, hx, h₁, h₂⟩ : ∃ x, e.resolveWith inputs.place = .ok x ∧
      x.eval (l ++ r₁) = .ok (.boolean true) ∧ x.eval (l ++ r₂) = .ok .null := ⟨_, rfl, rfl, rfl⟩
  obtain ⟨-, residual, hresidual, hiff⟩ := plan_iff_split hrefs hplan
  exact ⟨hrefs, rfl, rfl, j, schema, x, residual, hplan, hconditions, hx, hresidual, h₁, h₂,
    fun r _ => hiff x hx l r rfl⟩

end JoinInputs

end TableQuery
