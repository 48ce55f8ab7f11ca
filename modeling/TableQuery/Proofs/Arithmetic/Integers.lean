import TableQuery.Proofs.Result
import TableQuery.Scalar.Arith
import TableQuery.Scalar.Infer

/-! # Arithmetic on integers

An operation on integers is computed in 128 bits and then brought to the common type of its
operands (`Scalar.compute_int`). Nothing wraps: the result is the exact one, `ArithOp.ofInts`, or an
error. A product of two 64-bit integers may need more than 128 bits, and then it fits no type
either. A remainder always fits. The common type holds less than the operands only for `uint64`
beside a signed type; a remainder is no larger than the dividend and smaller than the divisor, one
of which is then held by `int64`. -/

namespace TableQuery

-- Powers are those of the core library, also where other instances are in scope.
attribute [local instance (2000)] instPowNat

/-! ### Bounds -/

/-- The integer is a value of the type. -/
abbrev IntType.Fits (t : IntType) (v : Int) : Prop := t.lo ≤ v ∧ v ≤ t.hi

/-- The integer has 128 bits at most. -/
abbrev Int128.Fits (v : Int) : Prop := minInt128 ≤ v ∧ v ≤ maxInt128

theorem IntType.lo_nonpos (t : IntType) : t.lo ≤ 0 := by cases t <;> decide

theorem IntType.hi_nonneg (t : IntType) : 0 ≤ t.hi := by cases t <;> decide

/-- What lies between zero and a value of a type is a value of the type. -/
theorem IntType.Fits.of_between {t : IntType} {v w : Int} (h : t.Fits v) (hlo : min 0 v ≤ w)
    (hhi : w ≤ max 0 v) : t.Fits w := by
  have := t.lo_nonpos
  have := t.hi_nonneg
  unfold IntType.Fits at *
  omega

theorem Bounded.ofInt?_of_within {lo hi v : Int} (h : lo ≤ v ∧ v ≤ hi) :
    ofInt? lo hi v = some ⟨v, h.1, h.2⟩ := dif_pos h

/-- **What is computed from a checked integer** is there if the integer is within the bounds. -/
theorem Bounded.ofInt?_decides {α : Type} {lo hi v : Int} {r : Result α} {f : Bounded lo hi → α}
    {e : Error} (hsome : ∀ b, ofInt? lo hi v = some b → r = .ok (f b))
    (hnone : ofInt? lo hi v = none → r = .error e) :
    r.Decides (lo ≤ v ∧ v ≤ hi) (fun a => ∃ b, a = f b ∧ b.val = v) (fun e' => e' = e) := by
  by_cases h : lo ≤ v ∧ v ≤ hi
  · exact .of_ok (hsome _ (ofInt?_of_within h)) ⟨_, rfl, rfl⟩ h
  · exact .of_error (hnone (ofInt?_eq_none_iff.mpr h)) rfl h

namespace Int128

theorem isSome_ofInt?_iff {v : Int} : (ofInt? v).isSome = true ↔ Fits v := by
  rw [Option.isSome_iff_ne_none, ne_eq, Bounded.ofInt?_eq_none_iff, not_not]

/-- What lies between zero and a 128-bit integer is one, too. -/
theorem Fits.of_between {v w : Int} (h : Fits v) (hlo : min 0 v ≤ w) (hhi : w ≤ max 0 v) :
    Fits w := by
  unfold Fits minInt128 maxInt128 at *
  omega

theorem fits_of_fits {t : IntType} {v : Int} (h : t.Fits v) : Fits v :=
  ⟨Int.le_trans t.int128_range.1 h.1, Int.le_trans h.2 t.int128_range.2⟩

end Int128

/-- A truncated remainder lies between zero and the dividend. -/
theorem tmod_between (x y : Int) : min 0 x ≤ x.tmod y ∧ x.tmod y ≤ max 0 x := by
  have hsize : (x.tmod y).natAbs ≤ x.natAbs := by
    rw [Int.natAbs_tmod]
    exact Nat.mod_le _ _
  rcases Int.le_total 0 x with hx | hx
  · have hsign := Int.tmod_nonneg y hx
    omega
  · have hsign := Int.tmod_nonneg y (Int.neg_nonneg_of_nonpos hx)
    rw [Int.neg_tmod] at hsign
    omega

/-- A quotient by a positive integer lies between zero and the dividend. -/
theorem tdiv_between (x : Int) {k : Int} (hk : 0 < k) :
    min 0 x ≤ x.tdiv k ∧ x.tdiv k ≤ max 0 x := by
  have hsize := Int.natAbs_tdiv_le_natAbs x k
  rcases Int.le_total 0 x with hx | hx
  · have hsign := Int.tdiv_nonneg hx (Int.le_of_lt hk)
    omega
  · have hsign := Int.tdiv_nonneg (Int.neg_nonneg_of_nonpos hx) (Int.le_of_lt hk)
    rw [Int.neg_tdiv] at hsign
    omega

/-! ### The exact result -/

namespace ArithOp

/-- **The exact result of an operation on integers**, whatever its size. Quotients are truncated
towards zero, so a remainder has the sign of its dividend. -/
def ofInts : ArithOp → Int → Int → Int
  | add, x, y => x + y
  | sub, x, y => x - y
  | mul, x, y => x * y
  | div, x, y => x.tdiv y
  | mod, x, y => x.tmod y

/-- The exact result on unscaled integers, at their scale. -/
def atScale (scale : Nat) : ArithOp → Int → Int → Int
  | mul, x, y => (x * y).tdiv (10 ^ scale)
  | op, x, y => op.ofInts x y

theorem atScale_zero (op : ArithOp) (x y : Int) : op.atScale 0 x y = op.ofInts x y := by
  cases op <;> first | rfl | exact Int.tdiv_one _

/-- The integer that must not exceed 128 bits on the way to a result. Of a remainder it is the
quotient. -/
def onTheWay : ArithOp → Int → Int → Int
  | add, x, y => x + y
  | sub, x, y => x - y
  | mul, x, y => x * y
  | div, x, y | mod, x, y => x.tdiv y

/-- Operations on numbers other than division have the common type of the operands. -/
theorem resultType_of_supertype? {op : ArithOp} (hop : op ≠ div) {x y w : BaseType} {m n : Bool}
    (hx : (DataType.base x m).isNumeric = true) (hy : (DataType.base y n).isNumeric = true)
    (h : x.supertype? y = some w) :
    op.resultType (.base x m) (.base y n) = .ok (.base w (m || n)) := by
  simp [resultType, resultType?, DataType.isNull, hx, hy, hop, DataType.supertype?, h,
    DataType.withNullable, DataType.nullable]

end ArithOp

namespace Scalar

/-- **An operation on two values**, at the type that it has for the types of the values. -/
def compute (op : ArithOp) (a b : Scalar) : Result Scalar := do
  let t ← op.resultType a.dataType b.dataType
  arith op a b t

theorem compute_of_resultType {op : ArithOp} {a b : Scalar} {t : DataType}
    (h : op.resultType a.dataType b.dataType = .ok t) : compute op a b = arith op a b t := by
  rw [compute, h]
  rfl

theorem ExactResult.ofInt_eq (v : Int) :
    ExactResult.ofInt v = if Int128.Fits v then .value v else .overflow := by
  simp only [ofInt, Int128.isSome_ofInt?_iff]

/-- What an operation other than division comes to, at any scale. -/
theorem exactOp_eq {op : ArithOp} (hop : op ≠ .div) {scale : Nat} {x y : Int}
    (hmod : op = .mod → y ≠ 0) :
    exactOp op scale x y =
      if Int128.Fits (op.onTheWay x y) then .value (op.atScale scale x y) else .overflow := by
  cases op with
  | add | sub => exact ExactResult.ofInt_eq _
  | mul =>
    change _ = if Int128.Fits (x * y) then _ else _
    by_cases h : Int128.Fits (x * y)
    · simp only [exactOp, ExactResult.ofInt_eq, ArithOp.atScale, if_pos h]
    · simp only [exactOp, ExactResult.ofInt_eq, if_neg h]
  | div => exact absurd rfl hop
  | mod =>
    change _ = if Int128.Fits (x.tdiv y) then _ else _
    by_cases h : Int128.Fits (x.tdiv y)
    · simp only [exactOp, ExactResult.ofInt_eq, if_neg (hmod rfl), ArithOp.atScale, ArithOp.ofInts,
        if_pos h]
    · simp only [exactOp, ExactResult.ofInt_eq, if_neg (hmod rfl), if_neg h]

end Scalar

/-! ### The common type -/

namespace IntType

variable {s t : IntType}

/-- The common type reaches as far down as its first type, if that one has a sign. -/
theorem lo_join_le (h : s.lo < 0) : (s.join t).lo ≤ s.lo := by
  cases s <;> first | exact absurd h (by decide) | (cases t <;> decide)

/-- The common type reaches as far up as one of the two types. -/
theorem min_hi_le_hi_join : min s.hi t.hi ≤ (s.join t).hi := by
  cases s <;> cases t <;> decide

theorem natAbs_le (b : t.Value) : (b.val.natAbs : Int) ≤ t.hi + 1 := by
  have hlo := b.lo_le
  have hhi := b.le_hi
  have hends : -(t.hi + 1) ≤ t.lo := by cases t <;> decide
  omega

/-- **A remainder fits** the common type of dividend and divisor. -/
theorem fits_tmod (a : s.Value) (b : t.Value) (hb : b.val ≠ 0) :
    (s.join t).Fits (a.val.tmod b.val) := by
  obtain ⟨hmin, hmax⟩ := tmod_between a.val b.val
  have hsmall : ((a.val.tmod b.val).natAbs : Int) < b.val.natAbs := by
    rw [Int.natAbs_tmod]
    exact_mod_cast Nat.mod_lt _ (Int.natAbs_pos.mpr hb)
  have hdivisor := natAbs_le b
  have hlo := lo_nonpos (s.join t)
  have hhi := hi_nonneg (s.join t)
  have hbelow := min_hi_le_hi_join (s := s) (t := t)
  have hstart := a.lo_le
  have hend := a.le_hi
  constructor
  · by_cases hs : s.lo < 0
    · have := lo_join_le (t := t) hs
      omega
    · omega
  · omega

end IntType

/-! ### Operations on two integers -/

namespace Scalar

variable {op : ArithOp} {s t : IntType}

theorem resultType_int (hop : op ≠ .div) (a : s.Value) (b : t.Value) :
    op.resultType (int s a).dataType (int t b).dataType = .ok (.base (.int (s.join t)) false) :=
  ArithOp.resultType_of_supertype? hop rfl rfl rfl

/-- An exact integer is brought to a type if it fits. -/
theorem ofIntAs_decides (w : IntType) (n : Bool) (v : Int) :
    (ofIntAs w n v).Decides (w.Fits v) (fun r => ∃ x : w.Value, r = int w x ∧ x.val = v)
      (fun e => e = .eval (.integerOutOfRange v (.base (.int w) n))) :=
  Bounded.ofInt?_decides (fun b hb => by rw [ofIntAs, IntType.ofInt?, hb])
    fun hnone => by rw [ofIntAs, IntType.ofInt?, hnone]

/-- Nothing but the result of an operation is too long for 128 bits. -/
theorem fits_onTheWay (hop : op ≠ .div) (a : s.Value) (b : t.Value) {w : IntType}
    (h : w.Fits (op.ofInts a.val b.val)) : Int128.Fits (op.onTheWay a.val b.val) := by
  cases op with
  | add | sub | mul => exact Int128.fits_of_fits h
  | div => exact absurd rfl hop
  | mod =>
    have hquotient := Int.natAbs_tdiv_le_natAbs a.val b.val
    have hsize := IntType.natAbs_le a
    have hwide : s.hi + 1 ≤ maxInt128 := by cases s <;> decide
    change minInt128 ≤ a.val.tdiv b.val ∧ a.val.tdiv b.val ≤ maxInt128
    unfold minInt128 maxInt128 at *
    omega

theorem arith_int (hop : op ≠ .div) (a : s.Value) (b : t.Value) (w : IntType) (n : Bool)
    (hmod : op = .mod → b.val ≠ 0) :
    arith op (int s a) (int t b) (.base (.int w) n) =
      if Int128.Fits (op.onTheWay a.val b.val) then ofIntAs w n (op.ofInts a.val b.val)
      else .error (.eval (.overflow op (int s a) (int t b))) := by
  by_cases h : Int128.Fits (op.onTheWay a.val b.val)
  · simp only [arith, isNull, Bool.or_self, Bool.false_eq_true, if_false, asInt, int?,
      Result.ok_bind, exactOp_eq hop hmod, if_pos h, ArithOp.atScale_zero]
  · simp only [arith, isNull, Bool.or_self, Bool.false_eq_true, if_false, asInt, int?,
      Result.ok_bind, exactOp_eq hop hmod, if_neg h]

/-- **Arithmetic on integers never wraps.** A sum, difference, product or remainder has the common
type of its operands. The remainder by zero is null. Every other result is the exact one if that
fits the type, as a remainder always does, and an error if not. -/
theorem compute_int (hop : op ≠ .div) (a : s.Value) (b : t.Value) : ∃ w : IntType,
    op.resultType (int s a).dataType (int t b).dataType = .ok (.base (.int w) false) ∧
      (op = .mod → b.val = 0 → compute op (int s a) (int t b) = .ok .null) ∧
      ((op = .mod → b.val ≠ 0) →
        (compute op (int s a) (int t b)).Decides (w.Fits (op.ofInts a.val b.val))
          (fun v => ∃ r : w.Value, v = int w r ∧ r.val = op.ofInts a.val b.val)
          (fun e =>
            e = .eval (.integerOutOfRange (op.ofInts a.val b.val) (.base (.int w) false)) ∨
              e = .eval (.overflow op (int s a) (int t b)))) ∧
      (op = .mod → b.val ≠ 0 → w.Fits (op.ofInts a.val b.val)) := by
  have htype := resultType_int hop a b
  refine ⟨s.join t, htype, ?_, fun hmod => ?_, ?_⟩
  · rintro rfl hzero
    rw [compute_of_resultType htype]
    simp [arith, isNull, asInt, int?, exactOp, hzero]
  · rw [compute_of_resultType htype, arith_int hop a b _ _ hmod]
    split
    · exact (ofIntAs_decides _ _ _).mono_error fun e he => .inl he
    · rename_i hlong
      exact .of_error rfl (.inr rfl) fun hfits => hlong (fits_onTheWay hop a b hfits)
  · rintro rfl hb
    exact IntType.fits_tmod a b hb

/-- The greatest `uint64` leaves the greatest `int64` beside the least `int64`. -/
theorem compute_int_remainder :
    compute .mod (int .uint64 ⟨18446744073709551615, by decide, by decide⟩)
        (int .int64 ⟨-9223372036854775808, by decide, by decide⟩) =
      .ok (int .int64 ⟨9223372036854775807, by decide, by decide⟩) := by
  obtain ⟨w, htype, -, hexact, hfits⟩ := compute_int (show ArithOp.mod ≠ .div by decide)
    (⟨18446744073709551615, by decide, by decide⟩ : IntType.Value .uint64)
    (⟨-9223372036854775808, by decide, by decide⟩ : IntType.Value .int64)
  rw [resultType_int (by decide)] at htype
  cases htype
  obtain ⟨v, hv, r, rfl, hr⟩ := (hexact (by decide)).ok (hfits rfl (by decide))
  rw [hv, Bounded.ext (a := r) (b := ⟨9223372036854775807, by decide, by decide⟩) hr]
  rfl

end Scalar

end TableQuery
