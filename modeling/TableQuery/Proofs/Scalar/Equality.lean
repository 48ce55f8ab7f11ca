import TableQuery.Proofs.Scalar.NumberKey
import TableQuery.Expr.RowExpr

/-! # Keys and the equality of filters

Grouping and joins take two values as equal when their keys are, a filter when comparison finds them
equal. The two are compared here kind by kind: values of different kinds have different keys and do
not compare, and texts, bytes, intervals and floats are equal in order exactly if they have one key
and comparison orders them at all (`Scalar.ordered`). Other numbers have one key if they are the
same number (`Scalar.SameNumber`) and compare as equal if they have one 64-bit form
(`Scalar.SameDouble`). -/

namespace TableQuery

namespace Scalar

/-! ### Values that comparison orders -/

mutual

/-- **Comparison orders the value** among its like. It does not order null, NaN, structs and
intervals without a length in 64-bit nanoseconds, nor lists that hold such a value. -/
def ordered : Scalar → Bool
  | .null | .struct _ => false
  | .float t v => !(t.decode v).isNaN
  | .interval iv => iv.nanos?.isSome
  | .list values => orderedAll values
  | .boolean _ | .int _ _ | .decimal _ | .utf8 _ | .binary _ | .date _ | .time _
  | .timestamp _ _ => true

def orderedAll : List Scalar → Bool
  | [] => true
  | v :: r => ordered v && orderedAll r

end

/-- Two numbers are equal as 64-bit floating point values. -/
def SameDouble (a b : Scalar) : Prop :=
  ∃ x y, a.double? = some x ∧ b.double? = some y ∧ x.compare? y = some .eq

/-! ### Kinds -/

/-- What values have in common that may have one key. -/
inductive Kind where
  | null | boolean | number | utf8 | binary | date | time | timestamp | interval | list | struct
  deriving DecidableEq

def kind : Scalar → Kind
  | .null => .null
  | .boolean _ => .boolean
  | .int _ _ | .float _ _ | .decimal _ => .number
  | .utf8 _ => .utf8
  | .binary _ => .binary
  | .date _ => .date
  | .time _ => .time
  | .timestamp _ _ => .timestamp
  | .interval _ => .interval
  | .list _ => .list
  | .struct _ => .struct

end Scalar

/-- The kind of the values that have the key. -/
def Key.kind : Key → Scalar.Kind
  | .null => .null
  | .boolean _ => .boolean
  | .int _ | .float _ | .decimal _ _ => .number
  | .utf8 _ => .utf8
  | .binary _ => .binary
  | .date _ => .date
  | .time _ => .time
  | .timestamp _ => .timestamp
  | .interval _ _ => .interval
  | .list _ => .list
  | .struct _ => .struct

namespace Scalar

theorem kind_key (a : Scalar) : a.key.kind = a.kind := by
  cases a with
  | float t v =>
    rw [key]
    rcases Key.ofDouble_cases (t.toDouble v) with ⟨n, h⟩ | h <;> rw [h] <;> rfl
  | decimal d =>
    rw [key]
    rcases Key.ofDecimal_cases d.unscaled.val d.scale with ⟨n, h⟩ | ⟨n, s, h⟩ <;> rw [h] <;> rfl
  | interval iv =>
    rw [key]
    split <;> rfl
  | _ => rfl

theorem kind_eq_of_key_eq {a b : Scalar} (h : a.key = b.key) : a.kind = b.kind := by
  rw [← kind_key, h, kind_key]

/-- Only values of one kind compare. -/
theorem kind_eq_of_compare? {a b : Scalar} {o : Ordering} (h : a.compare? b = some o) :
    a.kind = b.kind := by
  cases a <;> cases b <;> first | rfl | simp [compare?, double?] at h

end Scalar

/-! ### Texts and bytes -/

theorem compareText_eq_iff {a b : String} : compareText a b = .eq ↔ a = b := by
  unfold compareText
  split
  · rename_i h
    simpa using String.ne_of_lt h
  · split <;> simp_all

theorem compareBytes_eq_iff : ∀ {a b : List UInt8}, compareBytes a b = .eq ↔ a = b
  | [], [] | [], _ :: _ | _ :: _, [] => by simp [compareBytes]
  | x :: r, y :: s => by
    rw [compareBytes, Ordering.then_eq_eq, compareBytes_eq_iff, List.cons.injEq,
      Std.compare_eq_iff_eq, UInt8.toNat_inj]

/-! ### Intervals -/

/-- An interval of nanoseconds has its count for a length. -/
theorem Interval.nanos?_of_nanosecond {iv : Interval} (h : iv.unit = .nanosecond) :
    iv.nanos? = some iv.count := by
  simp [nanos?, h, IntervalUnit.nanos?]

namespace Scalar

theorem compare?_interval_eq_iff (x y : Interval) :
    (interval x).compare? (.interval y) = some .eq ↔
      (interval x).key = (interval y).key ∧ (interval x).ordered = true := by
  rw [compare?, key, key, ordered]
  cases hx : x.nanos? with
  | none => simp
  | some m =>
    cases hy : y.nanos? with
    | none =>
      -- Only an interval of nanoseconds has such a key, and it has a length.
      have hunit : y.unit ≠ .nanosecond := by
        intro h
        rw [Interval.nanos?_of_nanosecond h] at hy
        cases hy
      simpa using fun _ => Ne.symm hunit
    | some n => simp

/-! ### Numbers -/

theorem isNaN_toDouble {t : FloatType} (v : t.Value) :
    (t.decode v).isNaN = true ↔ t.toDouble v = .nan := by
  cases h : t.decode v with
  | nan => simp [FloatType.toDouble_of_nan h, FloatValue.isNaN]
  | infinity s => simp [FloatType.toDouble_of_infinity h, FloatValue.isNaN]
  | finite s n => simp [FloatType.toDouble_of_finite h, FloatValue.isNaN]

theorem compare?_float_eq_iff {s t : FloatType} (v : s.Value) (w : t.Value) :
    (float s v).compare? (.float t w) = some .eq ↔
      (float s v).key = (float t w).key ∧ (float s v).ordered = true := by
  have hiff := Key.ofDouble_eq_iff (FloatType.valid_toDouble v) (FloatType.valid_toDouble w)
  rw [key, key, ordered, Bool.not_eq_true', Bool.eq_false_iff, Ne, isNaN_toDouble, hiff]
  simp [compare?, double?]

/-- A number that another one is the same as is ordered. -/
theorem SameNumber.ordered {a b : Scalar} (h : a.SameNumber b) : a.ordered = true := by
  obtain ⟨q, hq, -⟩ := h
  cases a with
  | float t v =>
    obtain ⟨s, n, hfin⟩ := FloatFormat.exists_finite_of_number? hq
    simp [Scalar.ordered, hfin, FloatValue.isNaN]
  | int t v | decimal d => rfl
  | _ => cases hq

/-- Two integers are compared as they are. -/
theorem compare?_of_int {a b : Scalar} {m n : Int} (ha : a.int? = some m) (hb : b.int? = some n) :
    a.compare? b = some (Ord.compare m n) := by
  cases a <;> cases ha
  cases b <;> cases hb
  rw [compare?]

/-- Numbers of which not both are integers are compared by their 64-bit forms. -/
theorem compare?_of_number {a b : Scalar} (ha : a.kind = .number) (hb : b.kind = .number)
    (hint : a.int? = none ∨ b.int? = none) :
    a.compare? b = a.double?.bind fun x => b.double?.bind fun y => x.compare? y := by
  cases a <;> cases ha <;> cases b <;> cases hb <;>
    first | simp [int?] at hint; done | simp only [compare?, Option.bind_eq_bind]

theorem compare?_eq_iff_sameDouble {a b : Scalar} (ha : a.kind = .number) (hb : b.kind = .number)
    (hint : a.int? = none ∨ b.int? = none) : a.compare? b = some .eq ↔ a.SameDouble b := by
  simp only [compare?_of_number ha hb hint, SameDouble, Option.bind_eq_some_iff]
  constructor
  · rintro ⟨x, hx, y, hy, h⟩
    exact ⟨x, y, hx, hy, h⟩
  · rintro ⟨x, y, hx, hy, h⟩
    exact ⟨x, hx, y, hy, h⟩

/-! ### Equality as a predicate -/

theorem compareBy_eq_true_iff {a b : Scalar} :
    a.compareBy .eq b = .boolean true ↔ a.compare? b = some .eq := by
  unfold compareBy
  cases a.compare? b with
  | none => simp
  | some o => cases o <;> simp [CompareOp.holds]

theorem isTrue_compareBy_eq_iff {a b : Scalar} :
    RowExpr.isTrue (a.compareBy .eq b) = true ↔ a.compare? b = some .eq := by
  rw [← compareBy_eq_true_iff]
  cases a.compareBy .eq b <;> simp [RowExpr.isTrue]

end Scalar

end TableQuery
