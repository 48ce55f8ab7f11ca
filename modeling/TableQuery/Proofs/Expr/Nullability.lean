import TableQuery.Proofs.Batch.Nulls
import TableQuery.Proofs.DataType
import TableQuery.Proofs.Expr.Soundness
import TableQuery.Proofs.Join.Equality
import TableQuery.Proofs.Number.Ordered

/-! # Nulls of expressions whose type admits none

The type of an operator is nullable when that of an operand is. Two operators nevertheless give
null for values that are not null, by their definition: the remainder of exact numbers when the
divisor is zero, and a comparison of values that have no order. `RowExpr.MakesNull` says that such a
node takes part in the value of an expression. On a row without nulls in the columns that admit
none, it is the only source of a null under a type that admits none (`typeIn_null_sources`);
`not_typeIn_nonNull` shows that there are such nulls. -/

namespace TableQuery

/-! ### Nullability of the types of operators -/

theorem DataType.exists_eq_base_of_withNullable {t : DataType} {n m : Bool} {b : BaseType}
    (h : t.withNullable n = .base b m) : ∃ k, t = .base b k := by
  cases t <;> cases h
  exact ⟨_, rfl⟩

namespace ArithOp

theorem nullable_resultTypeBesideNull? {op : ArithOp} {s t : DataType}
    (h : op.resultTypeBesideNull? s = some t) : t.nullable = true := by
  unfold resultTypeBesideNull? at h
  split at h
  · cases h
    rfl
  · split at h
    · cases h
      cases s <;> rfl
    · cases h

/-- The result of arithmetic admits null as soon as an operand does. -/
theorem nullable_of_resultType {op : ArithOp} {a b t : DataType} (h : op.resultType a b = .ok t)
    (ht : t.nullable = false) : a.nullable = false ∧ b.nullable = false := by
  have hbeside : ∀ s, op.resultTypeBesideNull? s ≠ some t := by
    intro s hs
    rw [nullable_resultTypeBesideNull? hs] at ht
    cases ht
  have hnull : a.isNull = false ∧ b.isNull = false := by
    unfold resultType at h
    dsimp only at h
    cases ha : a.isNull <;> cases hb : b.isNull <;> simp only [ha, hb] at h
    · exact ⟨rfl, rfl⟩
    · cases hr : op.resultTypeBesideNull? a <;> simp_all
    · cases hr : op.resultTypeBesideNull? b <;> simp_all
    · cases h
      cases ht
  obtain ⟨w, -, rfl⟩ := (resultType_eq_ok_iff hnull.1 hnull.2).mp h
  simpa using DataType.eq_false_of_nullable_withNullable ht

/-- Of the operators on numbers only division leaves their common supertype. -/
theorem supertype?_of_resultType? {op : ArithOp} {a b t : DataType}
    (h : op.resultType? a b = some t) (ht : t.isInteger = true ∨ t.isDecimal = true) :
    op ≠ div ∧ a.supertype? b = some t := by
  unfold resultType? at h
  split at h
  · split at h
    · cases h
      simp [DataType.isInteger, DataType.isDecimal, DataType.intType?] at ht
    · exact ⟨by assumption, h⟩
  · exfalso
    split at h <;> cases h <;> simp_all [DataType.isInteger, DataType.isDecimal, DataType.intType?]

end ArithOp

namespace CompareOp

theorem resultType_eq_ok_iff {op : CompareOp} {a b t : DataType} :
    op.resultType a b = .ok t ↔
      a.isComparable b = true ∧ t = .base .boolean (a.nullable || b.nullable) := by
  unfold resultType
  split
  · rename_i h
    rw [Except.ok.injEq, eq_comm]
    exact ⟨fun ht => ⟨h, ht⟩, And.right⟩
  · rename_i h
    exact ⟨fun ht => (nomatch ht), fun ht => absurd ht.1 h⟩

end CompareOp

namespace DataType

/-- The values of the type are of no known kind. -/
def isUnknown : DataType → Bool
  | base .unknown _ => true
  | _ => false

end DataType

namespace Scalar

/-! ### Operators on null -/

@[simp] theorem arith_null_left (op : ArithOp) (b : Scalar) (t : DataType) :
    arith op .null b t = .ok .null := rfl

@[simp] theorem arith_null_right (op : ArithOp) (a : Scalar) (t : DataType) :
    arith op a .null t = .ok .null := by
  cases a <;> rfl

@[simp] theorem compareBy_null_left (op : CompareOp) (b : Scalar) :
    compareBy op .null b = .null := by
  cases b <;> rfl

@[simp] theorem compareBy_null_right (op : CompareOp) (a : Scalar) :
    compareBy op a .null = .null := by
  cases a <;> simp [compareBy, compare?, double?]

/-! ### Arithmetic -/

/-- The value is zero, as an integer or decimal. -/
def isExactZero : Scalar → Bool
  | int _ v => v.val == 0
  | decimal d => d.unscaled.val == 0
  | _ => false

theorem intervalOp_ne_null {op : ArithOp} {u : IntervalUnit} {a b : Scalar} :
    intervalOp op u a b ≠ .ok .null := by
  intro h
  unfold intervalOp at h
  split at h
  case h_7 => cases h
  -- every other rule gives an interval, if anything
  all_goals
    repeat obtain ⟨_, -, h⟩ := Result.bind_eq_ok_iff.mp h
    dsimp only at h
    split at h <;> cases h

theorem temporalOp_ne_null {op : ArithOp} {a b : Scalar} : temporalOp op a b ≠ .ok .null := by
  intro h
  unfold temporalOp at h
  split at h
  case h_7 => cases h
  all_goals
    obtain ⟨_, -, h⟩ := Result.map_eq_ok_iff.mp h
    cases h

theorem exactOp_eq_divisionByZero {op : ArithOp} {scale : Nat} {x y : Int}
    (h : exactOp op scale x y = .divisionByZero) : (op = .div ∨ op = .mod) ∧ y = 0 := by
  have hofInt : ∀ v, ExactResult.ofInt v ≠ .divisionByZero := by
    intro v
    unfold ExactResult.ofInt
    split <;> simp
  cases op with
  | add | sub => exact absurd h (hofInt _)
  | mul =>
    simp only [exactOp] at h
    split at h
    · cases h
    · exact absurd h (hofInt _)
  | div | mod =>
    simp only [exactOp] at h
    split at h
    · exact ⟨by simp, by assumption⟩
    · split at h
      · first | cases h | exact absurd h (hofInt _)
      · exact absurd h (hofInt _)

/-- Only zero is zero at a scale that has room for its digits. -/
theorem isExactZero_of_unscaledAt {scale : Nat} {v : Scalar}
    (hscale : ∀ d, v = decimal d → d.scale ≤ scale) (h : unscaledAt scale v = .ok 0) :
    v.isExactZero = true := by
  have hzero : ∀ {raw : Int} {places : Nat} {b : Int128},
      Int128.ofInt? (raw * 10 ^ (scale - places)) = some b → b.val = 0 → raw = 0 := by
    intro raw places b hb h0
    have hmul := Bounded.ofInt?_eq_some_iff.mp hb
    rw [h0] at hmul
    rcases Int.mul_eq_zero.mp hmul.symm with hraw | hpow
    · exact hraw
    · exact absurd hpow (Int.ne_of_gt (Int.pow_pos (by decide)))
  unfold unscaledAt at h
  cases v with
  | decimal d =>
    simp only [Result.pure_eq_ok, Result.ok_bind, if_pos (hscale d rfl)] at h
    split at h
    · rename_i b hb
      simpa [isExactZero] using hzero hb (by simpa using h)
    · cases h
  | int t n =>
    simp only [asInt, int?, Result.pure_eq_ok, Result.ok_bind, if_pos (Nat.zero_le scale)] at h
    split at h
    · rename_i b hb
      simpa [isExactZero] using hzero hb (by simpa using h)
    · cases h
  | _ => cases h

/-- The second operand of decimal arithmetic has no more decimal places than the result. -/
theorem Conforms.scale_le {d : Decimal} {op : ArithOp} {s t : DataType} {p scale : Nat} {n : Bool}
    (hd : (Scalar.decimal d).Conforms t)
    (h : op.resultType? s t = some (.base (.decimal p scale) n)) : d.scale ≤ scale := by
  have hsuper := (ArithOp.supertype?_of_resultType? h (.inr rfl)).2
  cases hd with
  | unknown m =>
    cases s with
    | base x k => cases x <;> simp [DataType.supertype?, BaseType.supertype?] at hsuper
    | _ => simp [DataType.supertype?, DataType.withNullable] at hsuper
  | decimal q m hd =>
    subst hd
    cases s with
    | null =>
      simp only [DataType.supertype?, DataType.withNullable, Option.some.injEq] at hsuper
      cases hsuper
      exact Nat.le_refl _
    | base x k =>
      cases x <;> simp [DataType.supertype?, BaseType.supertype?, BaseType.decimalWithInt] at hsuper
      all_goals omega
    | _ => simp [DataType.supertype?] at hsuper

/-- **Arithmetic on values gives null** only as a remainder of exact numbers by zero. -/
theorem arith_eq_null {op : ArithOp} {a b : Scalar} {s t u : DataType} (ha : a.Conforms s)
    (hb : b.Conforms t) (hu : op.resultType s t = .ok u) (ha0 : a ≠ .null) (hb0 : b ≠ .null)
    (h : a.arith op b u = .ok .null) :
    op = .mod ∧ (u.isInteger = true ∨ u.isDecimal = true) ∧ b.isExactZero = true := by
  have hs : s.isNull = false := by
    rw [← Bool.not_eq_true]
    exact fun hs => ha0 (ha.eq_null hs)
  have ht : t.isNull = false := by
    rw [← Bool.not_eq_true]
    exact fun ht => hb0 (hb.eq_null ht)
  obtain ⟨w, hw, hwu⟩ := (ArithOp.resultType_eq_ok_iff hs ht).mp hu
  -- division has a floating point type, so a division by zero is a remainder
  have hmod : w.isInteger = true ∨ w.isDecimal = true → (op = .div ∨ op = .mod) → op = .mod :=
    fun hexact hop => hop.resolve_left (ArithOp.supertype?_of_resultType? hw hexact).1
  unfold arith at h
  rw [if_neg (by simp [ha0, hb0])] at h
  split at h
  · obtain ⟨x, -, h⟩ := Result.bind_eq_ok_iff.mp h
    obtain ⟨y, -, h⟩ := Result.bind_eq_ok_iff.mp h
    cases h
  · obtain ⟨x, -, h⟩ := Result.bind_eq_ok_iff.mp h
    obtain ⟨y, hy, h⟩ := Result.bind_eq_ok_iff.mp h
    split at h
    · unfold ofIntAs at h
      split at h <;> cases h
    · rename_i hzero
      obtain ⟨hop, rfl⟩ := exactOp_eq_divisionByZero hzero
      obtain ⟨k, rfl⟩ := DataType.exists_eq_base_of_withNullable hwu
      refine ⟨hmod (.inl rfl) hop, .inl rfl, ?_⟩
      cases b <;> simp_all [asInt, int?, isExactZero]
    · cases h
  · obtain ⟨x, -, h⟩ := Result.bind_eq_ok_iff.mp h
    obtain ⟨y, hy, h⟩ := Result.bind_eq_ok_iff.mp h
    split at h
    · unfold ofUnscaled at h
      split at h <;> cases h
    · rename_i hzero
      obtain ⟨hop, rfl⟩ := exactOp_eq_divisionByZero hzero
      obtain ⟨k, rfl⟩ := DataType.exists_eq_base_of_withNullable hwu
      refine ⟨hmod (.inr rfl) hop, .inr rfl, ?_⟩
      refine isExactZero_of_unscaledAt (fun d hd => ?_) hy
      subst hd
      exact hb.scale_le hw
    · cases h
  · exact absurd h intervalOp_ne_null
  · exact absurd h temporalOp_ne_null
  · exact absurd h temporalOp_ne_null
  · cases h

theorem unscaledAt_of_isExactZero {scale : Nat} {v : Scalar} {n : Int} (hv : v.isExactZero = true)
    (h : unscaledAt scale v = .ok n) : n = 0 := by
  have hfits : Int128.ofInt? 0 = some ⟨0, by decide, by decide⟩ := rfl
  unfold unscaledAt at h
  cases v with
  | decimal d =>
    have hd : d.unscaled.val = 0 := by simpa [isExactZero] using hv
    simp only [Result.pure_eq_ok, Result.ok_bind, hd, Int.zero_mul, Int.zero_tdiv, hfits] at h
    split at h <;> cases h <;> rfl
  | int t m =>
    have hm : m.val = 0 := by simpa [isExactZero] using hv
    simp only [asInt, int?, Result.pure_eq_ok, Result.ok_bind, hm, Int.zero_mul, Int.zero_tdiv,
      hfits] at h
    split at h <;> cases h <;> rfl
  | _ => cases hv

/-- A remainder of exact numbers by zero is null, if anything. -/
theorem arith_mod_of_isExactZero {a b v : Scalar} {t : DataType}
    (ht : t.isInteger = true ∨ t.isDecimal = true) (hb : b.isExactZero = true)
    (h : a.arith .mod b t = .ok v) : v = .null := by
  unfold arith at h
  split at h
  · cases h
    rfl
  · split at h
    · rcases ht with ht | ht <;> cases ht
    · obtain ⟨x, -, h⟩ := Result.bind_eq_ok_iff.mp h
      obtain ⟨y, hy, h⟩ := Result.bind_eq_ok_iff.mp h
      have hzero : y = 0 := by cases b <;> simp_all [asInt, int?, isExactZero]
      subst hzero
      cases h
      rfl
    · obtain ⟨x, -, h⟩ := Result.bind_eq_ok_iff.mp h
      obtain ⟨y, hy, h⟩ := Result.bind_eq_ok_iff.mp h
      rw [unscaledAt_of_isExactZero hb hy] at h
      cases h
      rfl
    all_goals cases h

/-! ### Comparison -/

mutual

/-- The values are of one kind and so are, in lists, those at each place. -/
def KindsAgree : Scalar → Scalar → Prop
  | .list a, .list b => KindsAgreeAll a b
  | a, b => a.kind = b.kind

def KindsAgreeAll : List Scalar → List Scalar → Prop
  | a :: r, b :: s => KindsAgree a b ∧ KindsAgreeAll r s
  | _, _ => True

end

/-- The 64-bit form of a number that comparison orders is not NaN. -/
theorem exists_double? {v : Scalar} (hk : v.kind = .number) (h : v.ordered = true) :
    ∃ x, v.double? = some x ∧ x ≠ .nan := by
  cases v with
  | int t n => exact ⟨_, rfl, FloatFormat.ofInt_ne_nan _⟩
  | decimal d => exact ⟨_, rfl, d.toDouble_ne_nan⟩
  | float t w =>
    refine ⟨_, rfl, fun hnan => ?_⟩
    rw [ordered, (isNaN_toDouble w).mpr hnan] at h
    cases h
  | _ => cases hk

theorem exists_compare?_of_number {a b : Scalar} (hka : a.kind = .number) (hkb : b.kind = .number)
    (ha : a.ordered = true) (hb : b.ordered = true) : ∃ o, a.compare? b = some o := by
  obtain ⟨x, hx, hxn⟩ := exists_double? hka ha
  obtain ⟨y, hy, hyn⟩ := exists_double? hkb hb
  obtain ⟨o, ho⟩ := FloatValue.exists_compare? hxn hyn
  cases a <;> cases hka <;> cases b <;> cases hkb
  case int.refl.int.refl => exact ⟨_, by rw [compare?]⟩
  all_goals exact ⟨o, by simp [compare?, hx, hy, ho]⟩

mutual

/-- **Ordered values of one kind compare.** -/
theorem exists_compare? : ∀ {a b : Scalar}, a.KindsAgree b → a.ordered = true →
    b.ordered = true → ∃ o, a.compare? b = some o
  | .list xs, b, h, ha, hb => by
    cases b with
    | list ys => exact exists_compareAll? h ha hb
    | _ => cases h
  | .null, _, _, ha, _ | .struct _, _, _, ha, _ => by cases ha
  | .int _ _, b, h, ha, hb => exists_compare?_of_number rfl (Eq.symm h) ha hb
  | .float _ _, b, h, ha, hb => exists_compare?_of_number rfl (Eq.symm h) ha hb
  | .decimal _, b, h, ha, hb => exists_compare?_of_number rfl (Eq.symm h) ha hb
  | .interval iv, b, h, ha, hb => by
    cases b <;> cases h
    rename_i iw
    obtain ⟨m, hm⟩ := Option.isSome_iff_exists.mp ha
    obtain ⟨n, hn⟩ := Option.isSome_iff_exists.mp hb
    exact ⟨_, by simp [compare?, hm, hn]; rfl⟩
  | .boolean _, b, h, _, _ | .utf8 _, b, h, _, _ | .binary _, b, h, _, _ | .date _, b, h, _, _
  | .time _, b, h, _, _ | .timestamp _ _, b, h, _, _ => by
    cases b <;> cases h
    exact ⟨_, by rw [compare?]⟩

theorem exists_compareAll? : ∀ {xs ys : List Scalar}, KindsAgreeAll xs ys → orderedAll xs = true →
    orderedAll ys = true → ∃ o, compareAll? xs ys = some o
  | [], [], _, _, _ | [], _ :: _, _, _, _ | _ :: _, [], _, _, _ => ⟨_, by rw [compareAll?]⟩
  | x :: r, y :: s, h, hx, hy => by
    rw [orderedAll, Bool.and_eq_true] at hx hy
    obtain ⟨o, ho⟩ := exists_compare? h.1 hx.1 hy.1
    obtain ⟨p, hp⟩ := exists_compareAll? h.2 hx.2 hy.2
    cases o <;> simp [compareAll?, ho, hp]

end

/-- Values of known types that compare are of one kind. -/
theorem Conforms.kind_eq {a b : Scalar} {s t : DataType} (ha : a.Conforms s) (hb : b.Conforms t)
    (ha0 : a ≠ .null) (hb0 : b ≠ .null) (hs : s.isUnknown = false) (ht : t.isUnknown = false)
    (h : s.isComparable t = true) : a.kind = b.kind := by
  cases ha <;> first | exact absurd rfl ha0 | (cases hs; done) | skip
  all_goals
    cases hb <;> first
      | exact absurd rfl hb0
      | (cases ht; done)
      | rfl
      | simp [DataType.isComparable, DataType.isNull, DataType.isTimestamp, DataType.supertype?,
          BaseType.supertype?] at h

/-- **Comparison may find no order** between values of the two types: one of them has none among its
like, lists hold values of different kinds at one place, or a type that is unknown lets the values
differ in kind. -/
def MayLackOrder (a b : Scalar) (s t : DataType) : Prop :=
  a.ordered = false ∨ b.ordered = false ∨
    (∃ xs ys, a = .list xs ∧ b = .list ys ∧ ¬ KindsAgreeAll xs ys) ∨
    (a.kind ≠ b.kind ∧ (s.isUnknown = true ∨ t.isUnknown = true))

theorem mayLackOrder_of_compare?_eq_none {a b : Scalar} {s t : DataType} (ha : a.Conforms s)
    (hb : b.Conforms t) (ha0 : a ≠ .null) (hb0 : b ≠ .null) (hst : s.isComparable t = true)
    (h : a.compare? b = none) : MayLackOrder a b s t := by
  by_contra hno
  simp only [MayLackOrder, not_or, Bool.not_eq_false, not_and_or, not_exists, not_not,
    Bool.not_eq_true] at hno
  obtain ⟨hao, hbo, hlists, hkinds⟩ := hno
  have hkind : a.kind = b.kind := hkinds.elim id fun hu => ha.kind_eq hb ha0 hb0 hu.1 hu.2 hst
  have hagree : a.KindsAgree b := by
    cases a <;> cases b <;> first | exact hkind | skip
    exact (hlists _ _).resolve_left (absurd rfl) |>.resolve_left (absurd rfl)
  obtain ⟨o, ho⟩ := exists_compare? hagree hao hbo
  rw [ho] at h
  cases h

/-! ### Operators with one operand, and connectives -/

theorem negate_ne_null {v : Scalar} : negate v ≠ .ok .null := by
  intro h
  unfold negate at h
  split at h
  · split at h
    · split at h <;> cases h
    · cases h
  · cases h
  · split at h <;> cases h
  · split at h <;> cases h
  · cases h

theorem applyUnary_eq_null {op : UnaryOp} {v : Scalar} {s t : DataType}
    (hop : op.resultType s = .ok t) (ht : t.nullable = false) (h : applyUnary op v = .ok .null) :
    op ≠ .isNull ∧ op ≠ .isNotNull ∧ s.nullable = false ∧ v = .null := by
  cases op with
  | isNull | isNotNull => cases h
  | not =>
    simp only [UnaryOp.resultType] at hop
    split at hop
    · cases hop
      simp only [applyUnary] at h
      split at h
      · exact ⟨by simp, by simp, ht, isNull_iff.mp (by assumption)⟩
      · obtain ⟨b, -, hb⟩ := Result.map_eq_ok_iff.mp h
        cases hb
    · cases hop
  | negate =>
    simp only [UnaryOp.resultType] at hop
    split at hop
    · cases hop
      simp only [applyUnary] at h
      split at h
      · exact ⟨by simp, by simp, ht, isNull_iff.mp (by assumption)⟩
      · exact absurd h negate_ne_null
    · cases hop

/-- **A connective is null** when an operand is null and none is decisive. -/
theorem connectFrom_eq_null_iff {op : Connective} : ∀ {vs : List Scalar} {sawNull : Bool}
    {v : Scalar}, connectFrom op sawNull vs = .ok v →
      (v = .null ↔ (sawNull = true ∨ .null ∈ vs) ∧ boolean (decisive op) ∉ vs)
  | [], sawNull, v, h => by
    cases sawNull <;> cases h <;> simp
  | .null :: vs, _, v, h => by
    rw [connectFrom] at h
    simp [connectFrom_eq_null_iff h]
  | boolean b :: vs, sawNull, v, h => by
    rw [connectFrom] at h
    split at h
    · rename_i hb
      cases h
      simp [hb]
    · rename_i hb
      simp [connectFrom_eq_null_iff h, Ne.symm hb]
  | int _ _ :: _, _, _, h | float _ _ :: _, _, _, h | decimal _ :: _, _, _, h
  | utf8 _ :: _, _, _, h | binary _ :: _, _, _, h | date _ :: _, _, _, h | time _ :: _, _, _, h
  | timestamp _ _ :: _, _, _, h | interval _ :: _, _, _, h | list _ :: _, _, _, h
  | struct _ :: _, _, _, h => by cases h

end Scalar

/-! ### Expressions -/

namespace RowExpr

/-- **A null made of values becomes the value of the expression**, if it has one: a remainder of
exact numbers by zero or a comparison that finds no order, on the way up from which no operator
replaces null by a value. -/
inductive MakesNull (row : Row) : RowExpr → Prop
  | remainder {a b : RowExpr} {t : DataType} {x y : Scalar} : a.eval row = .ok x →
      b.eval row = .ok y → x ≠ .null → y.isExactZero = true →
      (t.isInteger = true ∨ t.isDecimal = true) → MakesNull row (.arith .mod a b t)
  | unordered {op : CompareOp} {a b : RowExpr} {t : DataType} {x y : Scalar} : a.eval row = .ok x →
      b.eval row = .ok y → x ≠ .null → y ≠ .null → x.compare? y = none →
      x.MayLackOrder y a.type b.type → MakesNull row (.compare op a b t)
  | arithLeft {op : ArithOp} {a b : RowExpr} {t : DataType} : MakesNull row a →
      MakesNull row (.arith op a b t)
  | arithRight {op : ArithOp} {a b : RowExpr} {t : DataType} : MakesNull row b →
      MakesNull row (.arith op a b t)
  | compareLeft {op : CompareOp} {a b : RowExpr} {t : DataType} : MakesNull row a →
      MakesNull row (.compare op a b t)
  | compareRight {op : CompareOp} {a b : RowExpr} {t : DataType} : MakesNull row b →
      MakesNull row (.compare op a b t)
  | operand {op : Connective} {xs : List RowExpr} {x : RowExpr} {t : DataType} : x ∈ xs →
      MakesNull row x → (∀ y ∈ xs, y.eval row ≠ .ok (.boolean (Scalar.decisive op))) →
      MakesNull row (.conj op xs t)
  | unary {op : UnaryOp} {x : RowExpr} {t : DataType} : op ≠ .isNull → op ≠ .isNotNull →
      MakesNull row x → MakesNull row (.unary op x t)

variable {types : List DataType} {row : Row}

theorem MakesNull.eq_null {x : RowExpr} (hx : x.MakesNull row) {v : Scalar}
    (hv : x.eval row = .ok v) : v = .null := by
  induction hx generalizing v with
  | remainder ha hb _ hzero ht =>
    rw [eval, ha, Result.ok_bind, hb, Result.ok_bind] at hv
    exact Scalar.arith_mod_of_isExactZero ht hzero hv
  | unordered ha hb _ _ hnone _ =>
    rw [eval, ha, Result.ok_bind, hb, Result.ok_bind] at hv
    cases hv
    rw [Scalar.compareBy, hnone]
  | arithLeft _ ih =>
    simp only [eval, Result.bind_eq_ok_iff] at hv
    obtain ⟨a, ha, b, -, h⟩ := hv
    rw [ih ha, Scalar.arith_null_left] at h
    cases h
    rfl
  | arithRight _ ih =>
    simp only [eval, Result.bind_eq_ok_iff] at hv
    obtain ⟨a, -, b, hb, h⟩ := hv
    rw [ih hb, Scalar.arith_null_right] at h
    cases h
    rfl
  | compareLeft _ ih =>
    simp only [eval, Result.bind_eq_ok_iff] at hv
    obtain ⟨a, ha, b, -, h⟩ := hv
    rw [ih ha, Scalar.compareBy_null_left] at h
    cases h
    rfl
  | compareRight _ ih =>
    simp only [eval, Result.bind_eq_ok_iff] at hv
    obtain ⟨a, -, b, hb, h⟩ := hv
    rw [ih hb, Scalar.compareBy_null_right] at h
    cases h
    rfl
  | operand hmem _ hdecisive ih =>
    simp only [eval, Result.bind_eq_ok_iff, evalAll_eq_mapM] at hv
    obtain ⟨vs, hvs, h⟩ := hv
    refine (Scalar.connectFrom_eq_null_iff h).mpr ⟨.inr ?_, fun hd => ?_⟩
    · obtain ⟨w, hwvs, hw⟩ := Result.exists_of_mapM hvs hmem
      exact ih hw ▸ hwvs
    · obtain ⟨y, hy, hyd⟩ := Result.exists_of_mem_mapM hvs _ hd
      exact hdecisive y hy hyd
  | @unary op x t hop hop' _ ih =>
    simp only [eval, Result.bind_eq_ok_iff] at hv
    obtain ⟨w, hw, h⟩ := hv
    rw [ih hw] at h
    cases op with
    | isNull => exact absurd rfl hop
    | isNotNull => exact absurd rfl hop'
    | not | negate =>
      cases h
      rfl

/-- **A null under a type that admits none** was made of values. -/
theorem Typed.makesNull {x : RowExpr} (hx : x.Typed types)
    (hrow : List.Forall₂ Scalar.Conforms row types) (hnulls : Row.NullsAdmitted types row)
    (ht : x.type.nullable = false) (h : x.eval row = .ok .null) : x.MakesNull row := by
  induction hx with
  | column hi =>
    simp only [eval, Except.ok.injEq] at h
    exact absurd h (hnulls _ _ hi ht)
  | literal w =>
    cases h
    cases ht
  | @arith op a b t hta htb hop iha ihb =>
    simp only [eval, Result.bind_eq_ok_iff] at h
    obtain ⟨x, hx, y, hy, h⟩ := h
    obtain ⟨hna, hnb⟩ := ArithOp.nullable_of_resultType hop ht
    by_cases hx0 : x = .null
    · exact .arithLeft (iha hna (hx0 ▸ hx))
    by_cases hy0 : y = .null
    · exact .arithRight (ihb hnb (hy0 ▸ hy))
    obtain ⟨rfl, hexact, hzero⟩ := Scalar.arith_eq_null (hta.eval_conforms hrow hx)
      (htb.eval_conforms hrow hy) hop hx0 hy0 h
    exact .remainder hx hy hx0 hzero hexact
  | @compare op a b t hta htb hop iha ihb =>
    simp only [eval, Result.bind_eq_ok_iff] at h
    obtain ⟨x, hx, y, hy, h⟩ := h
    obtain ⟨hcomp, rfl⟩ := CompareOp.resultType_eq_ok_iff.mp hop
    obtain ⟨hna, hnb⟩ := Bool.or_eq_false_iff.mp ht
    by_cases hx0 : x = .null
    · exact .compareLeft (iha hna (hx0 ▸ hx))
    by_cases hy0 : y = .null
    · exact .compareRight (ihb hnb (hy0 ▸ hy))
    have hnone : x.compare? y = none := by
      cases ho : x.compare? y with
      | none => rfl
      | some o => simp [Scalar.compareBy, ho] at h
    exact .unordered hx hy hx0 hy0 hnone (Scalar.mayLackOrder_of_compare?_eq_none
      (hta.eval_conforms hrow hx) (htb.eval_conforms hrow hy) hx0 hy0 hcomp hnone)
  | @conj op xs _ _ ih =>
    simp only [eval, Result.bind_eq_ok_iff, evalAll_eq_mapM] at h
    obtain ⟨vs, hvs, h⟩ := h
    obtain ⟨hnull, hdecisive⟩ := (Scalar.connectFrom_eq_null_iff h).mp rfl
    obtain ⟨x, hx, hxn⟩ := Result.exists_of_mem_mapM hvs _ (hnull.resolve_left (by simp))
    refine .operand hx (ih x hx ?_ hxn) fun y hy hyd => ?_
    · simpa using List.any_eq_false.mp ht x hx
    · exact hdecisive (Result.mem_of_mapM hvs hy hyd)
  | @unary op x t _ hop ih =>
    simp only [eval, Result.bind_eq_ok_iff] at h
    obtain ⟨w, hw, h⟩ := h
    obtain ⟨hop', hop'', hs, rfl⟩ := Scalar.applyUnary_eq_null hop ht h
    exact .unary hop' hop'' (ih hs hw)

end RowExpr

namespace Expr

/-- **Where nulls come from**: under a type that admits no null, the value of an expression without
aggregates and windows is null exactly when a null made of values becomes it, on every row of the
schema that has nulls only where its columns admit them. -/
theorem typeIn_null_sources {schema : Schema} {e : Expr} {t : DataType} {row : Row} (he : e.Plain)
    (ht : e.typeIn schema = .ok t) (hn : t.nullable = false)
    (hrow : List.Forall₂ Scalar.Conforms row schema.types)
    (hnulls : row.NullsAdmitted schema.types) :
    ∃ x, e.resolve (Scope.single schema) = .ok x ∧
      ∀ v, x.eval row = .ok v → (v = .null ↔ x.MakesNull row) := by
  obtain ⟨x, hx, rfl, htyped, -⟩ := resolve_of_typeIn he ht
  refine ⟨x, hx, fun v hv => ⟨?_, fun hmakes => hmakes.eq_null hv⟩⟩
  rintro rfl
  exact htyped.makesNull hrow hnulls hn hv

/-- Columns `a` and `b` of one type. -/
def twoColumns (t : DataType) : Schema := ⟨[("a", t), ("b", t)], by simp⟩

/-- By a remainder of seven by zero a negated comparison is null, by one of seven by two not. -/
theorem typeIn_null_sources_remainder :
    let seven : Int64Value := ⟨7, by decide, by decide⟩
    let schema := twoColumns (.base (.int .int64) false)
    let e := unary .not (compare .eq (arith .mod (col "a") (col "b")) (col "a"))
    let t : DataType := .base .boolean false
    e.Plain ∧ e.typeIn schema = .ok t ∧ t.nullable = false ∧
      ∀ b ∈ ([⟨0, by decide, by decide⟩, ⟨2, by decide, by decide⟩] : List Int64Value),
        let row : Row := [.int .int64 seven, .int .int64 b]
        List.Forall₂ Scalar.Conforms row schema.types ∧ row.NullsAdmitted schema.types ∧
        ∃ x, e.resolve (Scope.single schema) = .ok x ∧
          ∀ v, x.eval row = .ok v → (v = .null ↔ x.MakesNull row) := by
  intro seven schema e t
  have he : e.Plain := ⟨rfl, rfl⟩
  have ht : e.typeIn schema = .ok t := rfl
  refine ⟨he, ht, rfl, fun b _ => ?_⟩
  have hrow : List.Forall₂ Scalar.Conforms [.int .int64 seven, .int .int64 b] schema.types :=
    .cons (.int _ _) (.cons (.int _ _) .nil)
  have hnulls : Row.NullsAdmitted schema.types [.int .int64 seven, .int .int64 b] := by
    simp [schema, twoColumns, Schema.types]
  exact ⟨hrow, hnulls, typeIn_null_sources he ht rfl hrow hnulls⟩

/-- **A null under a type that admits none**, on a row of two columns of one type that holds neither
a null nor a NaN. -/
def NullFromValues (s : DataType) (e : Expr) (row : Row) : Prop :=
  ∃ t x, e.Plain ∧ e.typeIn (twoColumns s) = .ok t ∧ t.nullable = false ∧
    List.Forall₂ Scalar.Conforms row (twoColumns s).types ∧
    row.NullsAdmitted (twoColumns s).types ∧ Scalar.nanFreeAll row = true ∧
    e.resolve (Scope.single (twoColumns s)) = .ok x ∧ x.eval row = .ok .null

/-- A remainder by zero, a comparison with a quotient that is NaN, and comparisons of structs and of
intervals of months. -/
theorem not_typeIn_nonNull :
    let one : Scalar := .int .int64 ⟨1, by decide, by decide⟩
    let zero : Scalar := .int .int64 ⟨0, by decide, by decide⟩
    let nought : Scalar := .float .float64 0
    let month : Scalar := .interval ⟨⟨1, by decide, by decide⟩, .month⟩
    let struct : Scalar := .struct [("x", .boolean true)]
    NullFromValues (.base (.int .int64) false) (arith .mod (col "a") (col "b")) [one, zero] ∧
      NullFromValues (.base (.float .float64) false)
        (compare .lt (arith .div (col "a") (col "b")) (col "b")) [nought, nought] ∧
      NullFromValues (.struct [("x", .base .boolean false)] false) (compare .eq (col "a") (col "b"))
        [struct, struct] ∧
      NullFromValues (.base (.interval .month) false) (compare .eq (col "a") (col "b"))
        [month, month] := by
  intro one zero nought month struct
  refine ⟨?remainder, ?quotient, ?struct, ?month⟩
  case remainder =>
    refine ⟨.base (.int .int64) false, _, ⟨rfl, rfl⟩, rfl, rfl, ?_, ?_, rfl, rfl, rfl⟩
    · exact .cons (.int _ _) (.cons (.int _ _) .nil)
    · simp [twoColumns, Schema.types, one, zero]
  case quotient =>
    let quotient := Scalar.ofDoubleAs .float64
      (Scalar.floatOp .div (FloatType.float64.toDouble 0) (FloatType.float64.toDouble 0))
    have hnone : quotient.compare? nought = none := by decide +kernel
    have hnull : quotient.compareBy .lt nought = .null := by rw [Scalar.compareBy, hnone]
    have hfree : Scalar.nanFreeAll [nought, nought] = true := by decide +kernel
    refine ⟨.base .boolean false, _, ⟨rfl, rfl⟩, rfl, rfl, ?_, ?_, hfree, rfl,
      congrArg Except.ok hnull⟩
    · exact .cons (.float _ _) (.cons (.float _ _) .nil)
    · simp [twoColumns, Schema.types, nought]
  case struct =>
    refine ⟨.base .boolean false, _, ⟨rfl, rfl⟩, rfl, rfl, ?_, ?_, rfl, rfl, rfl⟩
    · exact .cons (.struct _ _ _) (.cons (.struct _ _ _) .nil)
    · simp [twoColumns, Schema.types, struct]
  case month =>
    refine ⟨.base .boolean false, _, ⟨rfl, rfl⟩, rfl, rfl, ?_, ?_, rfl, rfl, rfl⟩
    · exact .cons (.interval _ rfl) (.cons (.interval _ rfl) .nil)
    · simp [twoColumns, Schema.types, month]

end Expr

end TableQuery
