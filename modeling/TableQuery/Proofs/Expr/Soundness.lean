import Mathlib.Data.List.Forall2
import TableQuery.Proofs.Expr.Resolution

/-! # Soundness of expression types

A value conforms to a type when it is null or a value of the type's kind, with the scale, unit and
zone of the type. On a row whose values conform to the columns, an expression that has a type gives
only values that conform to it (`RowExpr.Typed.eval_conforms`), and it gives a value at all unless
it computes (`RowExpr.Typed.eval_ok`): only arithmetic and changes of sign can fail. Both are
inductions over typed expressions, one lemma for each operator; `typeIn_sound` puts them together
with the resolution of names. -/

namespace TableQuery

/-- **A value conforms to a type**: it is null, or of the type's kind and parameters. Any value
conforms to the unknown type. -/
inductive Scalar.Conforms : Scalar → DataType → Prop
  | null (t : DataType) : Conforms .null t
  | unknown (v : Scalar) (n : Bool) : Conforms v (.base .unknown n)
  | boolean (b n : Bool) : Conforms (.boolean b) (.base .boolean n)
  | int {t : IntType} (v : t.Value) (n : Bool) : Conforms (.int t v) (.base (.int t) n)
  | float {t : FloatType} (v : t.Value) (n : Bool) : Conforms (.float t v) (.base (.float t) n)
  | decimal {d : Decimal} {s : Nat} (p : Nat) (n : Bool) : d.scale = s →
      Conforms (.decimal d) (.base (.decimal p s) n)
  | utf8 (s : String) (n : Bool) : Conforms (.utf8 s) (.base .utf8 n)
  | binary (bytes : List UInt8) (n : Bool) : Conforms (.binary bytes) (.base .binary n)
  | date (d : Date) (n : Bool) : Conforms (.date d) (.base .date n)
  | time (t : TimeOfDay) (n : Bool) : Conforms (.time t) (.base .time n)
  | timestamp (t : Timestamp) (zone : Option String) (n : Bool) :
      Conforms (.timestamp t zone) (.base (.timestamp zone) n)
  | interval {iv : Interval} {u : IntervalUnit} (n : Bool) : iv.unit = u →
      Conforms (.interval iv) (.base (.interval u) n)
  | list (vs : List Scalar) (e : DataType) (n : Bool) : Conforms (.list vs) (.list e n)
  | struct (fs : List (String × Scalar)) (ts : List (String × DataType)) (n : Bool) :
      Conforms (.struct fs) (.struct ts n)

/-! ### Types of arithmetic -/

namespace BaseType

/-- The types of numbers. -/
def isNumber : BaseType → Bool
  | .int _ | .float _ | .decimal _ _ => true
  | _ => false

theorem isNumber_supertype? {a b t : BaseType} (ha : a.isNumber = true) (hb : b.isNumber = true)
    (h : a.supertype? b = some t) : t.isNumber = true := by
  cases a <;> simp only [isNumber, Bool.false_eq_true] at ha <;>
    cases b <;> simp only [isNumber, Bool.false_eq_true] at hb <;>
    simp only [supertype?, decimalWithInt, Option.some.injEq] at h <;> subst h <;> rfl

end BaseType

namespace DataType

theorem isNumeric_iff {t : DataType} :
    t.isNumeric = true ↔ ∃ x n, t = .base x n ∧ x.isNumber = true := by
  constructor
  · intro h
    cases t with
    | base x n =>
      refine ⟨x, n, rfl, ?_⟩
      cases x <;> first | rfl | cases h
    | _ => cases h
  · rintro ⟨x, n, rfl, h⟩
    cases x <;> first | rfl | cases h

/-- A common supertype of numbers is a type of numbers. -/
theorem isNumeric_supertype? {a b t : DataType} (ha : a.isNumeric = true)
    (hb : b.isNumeric = true) (h : a.supertype? b = some t) : t.isNumeric = true := by
  obtain ⟨x, m, rfl, hx⟩ := isNumeric_iff.mp ha
  obtain ⟨y, n, rfl, hy⟩ := isNumeric_iff.mp hb
  simp only [supertype?, Option.map_eq_some_iff] at h
  obtain ⟨z, hz, rfl⟩ := h
  exact isNumeric_iff.mpr ⟨z, _, rfl, BaseType.isNumber_supertype? hx hy hz⟩

@[simp] theorem isTemporal_withNullable (t : DataType) (n : Bool) :
    (t.withNullable n).isTemporal = t.isTemporal := by
  cases t with
  | base x m => cases x <;> rfl
  | _ => rfl

theorem isTemporal_of_isNumeric {t : DataType} (h : t.isNumeric = true) : t.isTemporal = false := by
  obtain ⟨x, n, rfl, hx⟩ := isNumeric_iff.mp h
  cases x <;> first | rfl | cases hx

end DataType

namespace ArithOp

theorem resultType_eq_ok_iff {op : ArithOp} {a b t : DataType} (ha : a.isNull = false)
    (hb : b.isNull = false) : op.resultType a b = .ok t ↔
      ∃ w, op.resultType? a b = some w ∧ w.withNullable (a.nullable || b.nullable) = t := by
  simp only [resultType, ha, hb, Bool.false_and, Bool.false_eq_true, if_false]
  cases op.resultType? a b <;> simp

/-- A date or timestamp results from shifting one by an interval, which stands on the right or, in
a sum, on the left. -/
theorem resultType?_of_isTemporal {op : ArithOp} {a b t : DataType}
    (h : op.resultType? a b = some t) (ht : t.isTemporal = true) :
    ((op = add ∨ op = sub) ∧ t = a ∧ b.isInterval = true) ∨
      (op = add ∧ t = b ∧ a.isInterval = true) := by
  unfold resultType? at h
  split at h
  · rename_i hnum
    rw [Bool.and_eq_true] at hnum
    split at h
    · cases h
      simp [DataType.isTemporal] at ht
    · rw [DataType.isTemporal_of_isNumeric (DataType.isNumeric_supertype? hnum.1 hnum.2 h)] at ht
      simp at ht
  · split at h <;> cases h <;> simp_all [DataType.isTemporal, DataType.isInterval]

end ArithOp

namespace Scalar

namespace Conforms

/-- Whether a type admits nulls does not matter. -/
theorem withNullable {v : Scalar} {t : DataType} (h : v.Conforms t) (n : Bool) :
    v.Conforms (t.withNullable n) := by
  cases h <;> constructor <;> assumption

theorem dataType (v : Scalar) : v.Conforms v.dataType := by
  cases v <;> simp only [Scalar.dataType] <;> constructor <;> rfl

theorem eq_null {v : Scalar} {t : DataType} (h : v.Conforms t) (ht : t.isNull = true) :
    v = .null := by
  cases t with
  | null => cases h; rfl
  | _ => cases ht

/-- A value of a boolean or null type is a truth value or null. -/
theorem boolean_or_null {v : Scalar} {t : DataType} (h : v.Conforms t)
    (ht : t.isBoolean = true ∨ t.isNull = true) : v = .null ∨ ∃ b, v = .boolean b := by
  rcases ht with ht | ht
  · cases h <;> first | exact Or.inl rfl | exact Or.inr ⟨_, rfl⟩ | cases ht
  · exact Or.inl (h.eq_null ht)

theorem timestamp_congr {x y : Timestamp} {zone : Option String} {t : DataType}
    (h : (Scalar.timestamp x zone).Conforms t) : (Scalar.timestamp y zone).Conforms t := by
  cases h <;> constructor

theorem date_congr {d e : Date} {t : DataType} (h : (Scalar.date d).Conforms t) :
    (Scalar.date e).Conforms t := by
  cases h <;> constructor

/-- Among the values of interval types are no dates and no timestamps. -/
theorem isInterval_cases {v : Scalar} {t : DataType} (h : v.Conforms t) (ht : t.isInterval = true) :
    v = .null ∨ ∃ iv, v = .interval iv := by
  cases h <;> first | exact Or.inl rfl | exact Or.inr ⟨_, rfl⟩ | cases ht

end Conforms

/-! ### Arithmetic -/

theorem intervalOp_conforms {op : ArithOp} {u : IntervalUnit} {a b v : Scalar} (n : Bool)
    (h : intervalOp op u a b = .ok v) : v.Conforms (.base (.interval u) n) := by
  unfold intervalOp at h
  split at h
  case h_7 => cases h
  -- every other rule counts its operands, if it has to, and then checks the result
  all_goals
    repeat obtain ⟨_, -, h⟩ := Result.bind_eq_ok_iff.mp h
    dsimp only at h
    split at h
    · cases h
      exact .interval n rfl
    · cases h

theorem ofIntAs_conforms {t : IntType} {n : Bool} {i : Int} {v : Scalar}
    (h : ofIntAs t n i = .ok v) : v.Conforms (.base (.int t) n) := by
  unfold ofIntAs at h
  split at h
  · cases h
    exact .int _ _
  · cases h

/-- A shifted date or timestamp keeps its kind and zone. -/
theorem temporalOp_conforms {op : ArithOp} {a b v : Scalar} {s t u : DataType}
    (ha : a.Conforms s) (hb : b.Conforms t) (hu : op.resultType? s t = some u)
    (htemp : u.isTemporal = true) (h : temporalOp op a b = .ok v) : v.Conforms u := by
  -- the operand that is no interval has the type of the result
  have hleft : (∀ iv, a ≠ interval iv) → a ≠ null → a.Conforms u := by
    intro hi hn
    rcases ArithOp.resultType?_of_isTemporal hu htemp with ⟨-, rfl, -⟩ | ⟨-, -, hs⟩
    · exact ha
    · rcases ha.isInterval_cases hs with rfl | ⟨iv, rfl⟩
      · exact absurd rfl hn
      · exact absurd rfl (hi iv)
  have hright : (∀ iv, b ≠ interval iv) → b ≠ null → b.Conforms u := by
    intro hi hn
    rcases ArithOp.resultType?_of_isTemporal hu htemp with ⟨-, -, ht⟩ | ⟨-, rfl, -⟩
    · rcases hb.isInterval_cases ht with rfl | ⟨iv, rfl⟩
      · exact absurd rfl hn
      · exact absurd rfl (hi iv)
    · exact hb
  unfold temporalOp at h
  split at h
  · obtain ⟨x, -, rfl⟩ := Result.map_eq_ok_iff.mp h
    exact (hleft (by simp) (by simp)).timestamp_congr
  · obtain ⟨x, -, rfl⟩ := Result.map_eq_ok_iff.mp h
    exact (hright (by simp) (by simp)).timestamp_congr
  · obtain ⟨x, -, rfl⟩ := Result.map_eq_ok_iff.mp h
    exact (hleft (by simp) (by simp)).timestamp_congr
  · obtain ⟨x, -, rfl⟩ := Result.map_eq_ok_iff.mp h
    exact (hleft (by simp) (by simp)).date_congr
  · obtain ⟨x, -, rfl⟩ := Result.map_eq_ok_iff.mp h
    exact (hright (by simp) (by simp)).date_congr
  · obtain ⟨x, -, rfl⟩ := Result.map_eq_ok_iff.mp h
    exact (hleft (by simp) (by simp)).date_congr
  · cases h

/-- Arithmetic brings its result to a type of numbers or intervals, whatever the operands are. -/
theorem arith_conforms_of_isTemporal {op : ArithOp} {a b v : Scalar} {t : DataType}
    (ht : t.isTemporal = false) (h : a.arith op b t = .ok v) : v.Conforms t := by
  unfold arith at h
  split at h
  · cases h
    exact .null t
  · split at h
    · obtain ⟨x, -, h⟩ := Result.bind_eq_ok_iff.mp h
      obtain ⟨y, -, h⟩ := Result.bind_eq_ok_iff.mp h
      cases h
      exact .float _ _
    · obtain ⟨x, -, h⟩ := Result.bind_eq_ok_iff.mp h
      obtain ⟨y, -, h⟩ := Result.bind_eq_ok_iff.mp h
      split at h
      · exact ofIntAs_conforms h
      · cases h
        exact .null _
      · cases h
    · obtain ⟨x, -, h⟩ := Result.bind_eq_ok_iff.mp h
      obtain ⟨y, -, h⟩ := Result.bind_eq_ok_iff.mp h
      split at h
      · unfold ofUnscaled at h
        split at h
        · cases h
          exact .decimal _ _ rfl
        · cases h
      · cases h
        exact .null _
      · cases h
    · exact intervalOp_conforms _ h
    · cases ht
    · cases ht
    · cases h

theorem arith_conforms {op : ArithOp} {a b v : Scalar} {s t u : DataType} (ha : a.Conforms s)
    (hb : b.Conforms t) (hu : op.resultType s t = .ok u) (h : a.arith op b u = .ok v) :
    v.Conforms u := by
  cases htemp : u.isTemporal with
  | false => exact arith_conforms_of_isTemporal htemp h
  | true =>
    unfold arith at h
    split at h
    · cases h
      exact .null u
    · rename_i hnn
      rw [Bool.or_eq_true, not_or, isNull_iff, isNull_iff] at hnn
      have hs : s.isNull = false := by
        rw [← Bool.not_eq_true]
        exact fun hs => hnn.1 (ha.eq_null hs)
      have ht : t.isNull = false := by
        rw [← Bool.not_eq_true]
        exact fun ht => hnn.2 (hb.eq_null ht)
      obtain ⟨w, hw, rfl⟩ := (ArithOp.resultType_eq_ok_iff hs ht).mp hu
      rw [DataType.isTemporal_withNullable] at htemp
      refine (temporalOp_conforms ha hb hw htemp ?_).withNullable _
      cases w with
      | base x n => cases x <;> first | exact h | cases h | exact nomatch htemp
      | _ => exact nomatch htemp

/-! ### The other operators -/

theorem compareBy_conforms (op : CompareOp) (a b : Scalar) (n : Bool) :
    (a.compareBy op b).Conforms (.base .boolean n) := by
  unfold compareBy
  split
  · exact .boolean _ n
  · exact .null _

/-- A connective of truth values and nulls has a value, which is one of these. -/
theorem connectFrom_ok (op : Connective) (n : Bool) : ∀ {vs : List Scalar} (sawNull : Bool),
    (∀ v ∈ vs, v = .null ∨ ∃ b, v = .boolean b) →
      ∃ v, connectFrom op sawNull vs = .ok v ∧ v.Conforms (.base .boolean n)
  | [], sawNull, _ => by
    cases sawNull
    · exact ⟨_, rfl, .boolean _ n⟩
    · exact ⟨_, rfl, .null _⟩
  | v :: vs, sawNull, h => by
    have hvs : ∀ w ∈ vs, w = .null ∨ ∃ b, w = .boolean b := fun w hw =>
      h w (List.mem_cons_of_mem v hw)
    rcases h v (by simp) with rfl | ⟨b, rfl⟩
    · exact connectFrom_ok op n true hvs
    · rw [connectFrom]
      split
      · exact ⟨_, rfl, .boolean b n⟩
      · exact connectFrom_ok op n sawNull hvs

theorem negate_conforms {v w : Scalar} {t : DataType} (hv : v.Conforms t) (h : v.negate = .ok w) :
    w.Conforms t := by
  unfold negate at h
  split at h
  · split at h
    · split at h
      · cases h
        cases hv <;> constructor
      · cases h
    · cases h
  · cases h
    cases hv <;> constructor
  · split at h
    · cases h
      cases hv with
      | unknown => exact .unknown _ _
      | decimal p n hs => exact .decimal p n hs
    · cases h
  · split at h
    · cases h
      cases hv with
      | unknown => exact .unknown _ _
      | interval n hu => exact .interval n hu
    · cases h
  · cases h

theorem applyUnary_conforms {op : UnaryOp} {v w : Scalar} {s t : DataType} (hv : v.Conforms s)
    (ht : op.resultType s = .ok t) (h : applyUnary op v = .ok w) : w.Conforms t := by
  cases op with
  | isNull | isNotNull =>
    cases ht
    cases h
    exact .boolean _ _
  | not =>
    simp only [UnaryOp.resultType] at ht
    split at ht
    · cases ht
      simp only [applyUnary] at h
      split at h
      · cases h
        exact .null _
      · obtain ⟨b, -, rfl⟩ := Result.map_eq_ok_iff.mp h
        exact .boolean _ _
    · cases ht
  | negate =>
    simp only [UnaryOp.resultType] at ht
    split at ht
    · cases ht
      simp only [applyUnary] at h
      split at h
      · cases h
        exact .null _
      · exact negate_conforms hv h
    · cases ht

/-- Only a change of sign can fail. -/
theorem applyUnary_ok {op : UnaryOp} {v : Scalar} {s t : DataType} (hop : op ≠ .negate)
    (hv : v.Conforms s) (ht : op.resultType s = .ok t) : ∃ w, applyUnary op v = .ok w := by
  cases op with
  | isNull | isNotNull => exact ⟨_, rfl⟩
  | negate => exact absurd rfl hop
  | not =>
    simp only [UnaryOp.resultType] at ht
    split at ht
    · rename_i hs
      rcases hv.boolean_or_null (by simpa using hs) with rfl | ⟨b, rfl⟩
      · exact ⟨_, rfl⟩
      · exact ⟨_, rfl⟩
    · cases ht

end Scalar

/-! ### Expressions -/

namespace RowExpr

variable {types : List DataType} {row : Row}

theorem evalAll_eq_mapM (row : Row) : ∀ xs : List RowExpr, evalAll row xs = xs.mapM (eval row)
  | [] => rfl
  | x :: r => by
    rw [evalAll, evalAll_eq_mapM row r, List.mapM_cons]

theorem conforms_getD {row : Row} {types : List DataType}
    (hrow : List.Forall₂ Scalar.Conforms row types) {i : Nat} {t : DataType}
    (ht : types[i]? = some t) : (row.getD i .null).Conforms t := by
  induction hrow generalizing i with
  | nil => simp at ht
  | cons hv _ ih =>
    cases i with
    | zero =>
      cases ht
      exact hv
    | succ i => exact ih ht

/-- The operands of a connective that have values have truth values or nulls. -/
theorem evalAll_boolean_or_null {xs : List RowExpr} {vs : List Scalar}
    (hbool : ∀ x ∈ xs, x.type.isBoolean = true ∨ x.type.isNull = true)
    (hconf : ∀ x ∈ xs, ∀ v, x.eval row = .ok v → v.Conforms x.type)
    (h : evalAll row xs = .ok vs) : ∀ v ∈ vs, v = .null ∨ ∃ b, v = .boolean b := by
  intro v hv
  rw [evalAll_eq_mapM] at h
  obtain ⟨x, hx, hxv⟩ := Result.exists_of_mem_mapM h v hv
  exact (hconf x hx v hxv).boolean_or_null (hbool x hx)

/-- **Preservation**: a typed expression gives values of its type. -/
theorem Typed.eval_conforms {x : RowExpr} (hx : x.Typed types)
    (hrow : List.Forall₂ Scalar.Conforms row types) {v : Scalar} (hv : x.eval row = .ok v) :
    v.Conforms x.type := by
  induction hx generalizing v with
  | column hi =>
    cases hv
    exact conforms_getD hrow hi
  | literal w =>
    cases hv
    exact .dataType w
  | arith _ _ hop iha ihb =>
    simp only [eval, Result.bind_eq_ok_iff] at hv
    obtain ⟨a, ha, b, hb, h⟩ := hv
    exact Scalar.arith_conforms (iha ha) (ihb hb) hop h
  | compare _ _ hop iha ihb =>
    simp only [eval, Result.bind_eq_ok_iff] at hv
    obtain ⟨a, ha, b, hb, h⟩ := hv
    cases h
    simp only [CompareOp.resultType] at hop
    split at hop
    · cases hop
      exact Scalar.compareBy_conforms _ a b _
    · cases hop
  | conj _ hbool ih =>
    simp only [eval, Result.bind_eq_ok_iff] at hv
    obtain ⟨vs, hvs, h⟩ := hv
    have hvals := evalAll_boolean_or_null hbool (fun x hx v hv => ih x hx hv) hvs
    obtain ⟨w, hw, hconf⟩ := Scalar.connectFrom_ok _ _ false hvals
    rw [Scalar.connect, hw] at h
    cases h
    exact hconf
  | unary _ hop ih =>
    simp only [eval, Result.bind_eq_ok_iff] at hv
    obtain ⟨w, hw, h⟩ := hv
    exact Scalar.applyUnary_conforms (ih hw) hop h

/-- **Progress**: a typed expression that does not compute has a value. -/
theorem Typed.eval_ok {x : RowExpr} (hx : x.Typed types)
    (hrow : List.Forall₂ Scalar.Conforms row types) (hc : x.computes = false) :
    ∃ v, x.eval row = .ok v := by
  induction hx with
  | column _ => exact ⟨_, rfl⟩
  | literal w => exact ⟨w, rfl⟩
  | arith _ _ _ _ _ => cases hc
  | compare _ _ _ iha ihb =>
    simp only [computes, Bool.or_eq_false_iff] at hc
    obtain ⟨a, ha⟩ := iha hc.1
    obtain ⟨b, hb⟩ := ihb hc.2
    exact ⟨_, by rw [eval, ha, Result.ok_bind, hb]; rfl⟩
  | conj htyped hbool ih =>
    have hall := computesAny_eq_false_iff.mp hc
    obtain ⟨vs, hvs⟩ := Result.exists_mapM_eq_ok fun x hx => ih x hx (hall x hx)
    rw [← evalAll_eq_mapM] at hvs
    have hvals := evalAll_boolean_or_null hbool
      (fun x hx v hv => (htyped x hx).eval_conforms hrow hv) hvs
    obtain ⟨w, hw, -⟩ := Scalar.connectFrom_ok _ false false hvals
    exact ⟨w, by rw [eval, hvs, Result.ok_bind, Scalar.connect, hw]⟩
  | unary htyped hop ih =>
    simp only [computes, Bool.or_eq_false_iff, beq_eq_false_iff_ne] at hc
    obtain ⟨v, hv⟩ := ih hc.2
    obtain ⟨w, hw⟩ := Scalar.applyUnary_ok hc.1 (htyped.eval_conforms hrow hv) hop
    exact ⟨w, by rw [eval, hv, Result.ok_bind, hw]⟩

end RowExpr

namespace Expr

/-- **Expression types are sound**: an expression without aggregates and windows that has a type
resolves, gives only values of that type on rows of the schema, and always gives one when it has
no arithmetic and no change of sign. -/
theorem typeIn_sound {schema : Schema} {e : Expr} {t : DataType} {row : Row} (he : e.Plain)
    (ht : e.typeIn schema = .ok t) (hrow : List.Forall₂ Scalar.Conforms row schema.types) :
    ∃ x, e.resolve (Scope.single schema) = .ok x ∧
      (∀ v, x.eval row = .ok v → v.Conforms t) ∧
      (e.computes = false → ∃ v, x.eval row = .ok v) := by
  obtain ⟨x, hx, rfl, htyped, hc⟩ := resolve_of_typeIn he ht
  refine ⟨x, hx, fun v hv => htyped.eval_conforms hrow hv, fun h => ?_⟩
  exact htyped.eval_ok hrow (hc.trans h)

/-- A comparison of a decimal with a missing number, beside a test for null. -/
theorem typeIn_sound_compare :
    let schema : Schema := ⟨[("price", .decimal 10 2), ("amount", .int .int32)], by decide⟩
    let e := conj .or [compare .lt (col "price") (col "amount"), unary .isNotNull (col "amount")]
    let row : Row := [.decimal ⟨⟨150, by decide, by decide⟩, 2⟩, .null]
    e.Plain ∧ e.typeIn schema = .ok .boolean ∧
      List.Forall₂ Scalar.Conforms row schema.types ∧ e.computes = false ∧
      ∃ x, e.resolve (Scope.single schema) = .ok x ∧
        (∀ v, x.eval row = .ok v → v.Conforms .boolean) ∧ ∃ v, x.eval row = .ok v := by
  intro schema e row
  have he : e.Plain := ⟨rfl, rfl⟩
  have ht : e.typeIn schema = .ok .boolean := rfl
  have hrow : List.Forall₂ Scalar.Conforms row schema.types :=
    .cons (.decimal _ _ rfl) (.cons (.null _) .nil)
  obtain ⟨x, hx, hconf, hok⟩ := typeIn_sound he ht hrow
  exact ⟨he, ht, hrow, rfl, x, hx, hconf, hok rfl⟩

end Expr

end TableQuery
