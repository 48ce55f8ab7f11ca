import Mathlib.Tactic.FieldSimp
import Mathlib.Tactic.Ring
import TableQuery.Proofs.Number.Binary
import TableQuery.Scalar.Compare
import TableQuery.Scalar.Key

/-! # Keys of numbers

`Scalar.number?` is the number that a value stands for, free of its width, scale or format. Decimal
keys are a normal form of it (`Key.ofDecimal_eq_iff`), so among integers and decimals equal keys are
equal numbers. The key of a float is that of an integer only for a whole number below `2 ^ 63`
(`Key.ofDouble_eq_int_iff`); two floats have one key when they compare as equal
(`Key.ofDouble_eq_iff`). `Scalar.key_eq_iff_sameNumber` puts the mixed pairs together. -/

namespace TableQuery

-- Powers are those of the core library, also where other instances are in scope.
attribute [local instance (2000)] instPowNat

namespace FloatValue

/-- Values are equal in order when they are one infinity or have equal units. -/
theorem compare?_eq_iff {x y : FloatValue} : x.compare? y = some .eq ↔
    (∃ s, x = infinity s ∧ y = infinity s) ∨
      ∃ s m t n, x = finite s m ∧ y = finite t n ∧ signedUnits s m = signedUnits t n := by
  cases x with
  | nan => simp [compare?]
  | infinity s =>
    cases y with
    | infinity t => cases s <;> cases t <;> simp [compare?]
    | nan => simp [compare?]
    | finite t n => cases s <;> simp [compare?]
  | finite s m =>
    cases y with
    | finite t n => simp [compare?]
    | nan => simp [compare?]
    | infinity t => cases t <;> simp [compare?]

theorem compare?_self {x : FloatValue} (h : x ≠ nan) : x.compare? x = some .eq := by
  rw [compare?_eq_iff]
  cases x with
  | nan => exact absurd rfl h
  | infinity s => exact .inl ⟨s, rfl, rfl⟩
  | finite s n => exact .inr ⟨s, n, s, n, rfl, rfl, rfl⟩

end FloatValue

/-! ### The number that a value stands for -/

/-- The number that a finite value stands for. -/
def FloatFormat.number? (f : FloatFormat) : FloatValue → Option ℚ
  | .finite s n => some (FloatValue.signedUnits s n / 2 ^ f.unitPlaces)
  | _ => none

/-- Finite values of one format are equal when their numbers are. -/
theorem FloatFormat.number?_finite_eq_iff {f : FloatFormat} {s : Bool} {n : Nat} {v : Int} :
    f.number? (.finite s n) = some (v : ℚ) ↔
      FloatValue.signedUnits s n = v * ((2 ^ f.unitPlaces : Nat) : Int) := by
  have hpos : (2 : ℚ) ^ f.unitPlaces ≠ 0 := pow_ne_zero _ two_ne_zero
  rw [number?, Option.some_inj, div_eq_iff hpos]
  constructor
  · intro h
    have hcast : ((FloatValue.signedUnits s n : Int) : ℚ) =
        ((v * ((2 ^ f.unitPlaces : Nat) : Int) : Int) : ℚ) := by
      rw [h]
      push_cast
      rfl
    exact_mod_cast hcast
  · intro h
    rw [h]
    push_cast
    rfl

theorem FloatFormat.exists_finite_of_number? {f : FloatFormat} {x : FloatValue} {q : ℚ}
    (h : f.number? x = some q) : ∃ s n, x = .finite s n := by
  cases x with
  | finite s n => exact ⟨s, n, rfl⟩
  | nan | infinity s => cases h

/-- The 64-bit form of a whole number is equal to the 64-bit values that stand for it. -/
theorem FloatFormat.compare?_whole_eq_iff {v : Int} {x : FloatValue} :
    (FloatValue.finite (v < 0) (v.natAbs * 2 ^ double.unitPlaces)).compare? x = some .eq ↔
      double.number? x = some (v : ℚ) := by
  have hunits : FloatValue.signedUnits (v < 0) (v.natAbs * 2 ^ double.unitPlaces) =
      v * ((2 ^ double.unitPlaces : Nat) : Int) := by
    rw [FloatValue.signedUnits_mul, FloatValue.signedUnits_natAbs]
  rw [FloatValue.compare?_eq_iff]
  constructor
  · rintro (⟨b, hb, -⟩ | ⟨b, m, c, n, hm, rfl, h⟩)
    · cases hb
    · cases hm
      rw [number?_finite_eq_iff, ← h, hunits]
  · intro h
    obtain ⟨c, n, rfl⟩ := exists_finite_of_number? h
    rw [number?_finite_eq_iff] at h
    exact .inr ⟨_, _, c, n, rfl, rfl, hunits.trans h.symm⟩

/-- The 64-bit form stands for the same number. -/
theorem FloatType.number?_toDouble {t : FloatType} (v : t.Value) :
    double.number? (t.toDouble v) = t.format.number? (t.decode v) := by
  cases h : t.decode v with
  | nan => rw [toDouble_of_nan h]; rfl
  | infinity s => rw [toDouble_of_infinity h]; rfl
  | finite s n =>
    have hplaces : t.format.unitPlaces ≤ double.unitPlaces := by cases t <;> decide
    have hpow : (2 : ℚ) ^ double.unitPlaces =
        2 ^ (double.unitPlaces - t.format.unitPlaces) * 2 ^ t.format.unitPlaces := by
      rw [← pow_add, Nat.sub_add_cancel hplaces]
    rw [toDouble_of_finite h, FloatFormat.number?, FloatFormat.number?,
      FloatValue.signedUnits_mul, hpow]
    congr 1
    generalize double.unitPlaces - t.format.unitPlaces = k
    have hk : (2 : ℚ) ^ k ≠ 0 := pow_ne_zero k two_ne_zero
    push_cast
    field_simp

namespace Scalar

/-- **The number that a numeric value stands for**; infinities and NaN stand for none. -/
def number? : Scalar → Option ℚ
  | .int _ v => some v.val
  | .float t v => t.format.number? (t.decode v)
  | .decimal d => some (d.unscaled.val / 10 ^ d.scale)
  | _ => none

/-- Integers and decimals. -/
def isExact : Scalar → Bool
  | .int _ _ | .decimal _ => true
  | _ => false

def isFloat : Scalar → Bool
  | .float _ _ => true
  | _ => false

end Scalar

/-! ### Decimal keys -/

namespace Key

theorem ofDecimal_cases (u : Int) : ∀ s : Nat,
    (∃ v, ofDecimal u s = int v) ∨ ∃ w t, ofDecimal u s = decimal w t
  | 0 => .inl ⟨u, rfl⟩
  | s + 1 => by
    rw [ofDecimal]
    split
    · exact ofDecimal_cases (u / 10) s
    · exact .inr ⟨_, _, rfl⟩

theorem eq_mul_of_ofDecimal_eq_int {v : Int} : ∀ {u : Int} {s : Nat},
    ofDecimal u s = int v → u = v * 10 ^ s
  | u, 0, h => by
    cases h
    simp
  | u, s + 1, h => by
    rw [ofDecimal] at h
    split at h
    · have ih := eq_mul_of_ofDecimal_eq_int h
      rw [pow_succ, ← mul_assoc]
      omega
    · cases h

theorem mul_eq_mul_of_ofDecimal_eq_decimal {w : Int} {t : Nat} : ∀ {u : Int} {s : Nat},
    ofDecimal u s = decimal w t → u * 10 ^ t = w * 10 ^ s
  | u, 0, h => by cases h
  | u, s + 1, h => by
    rw [ofDecimal] at h
    split at h
    · have ih := mul_eq_mul_of_ofDecimal_eq_decimal h
      have hu : u = u / 10 * 10 := by omega
      calc u * 10 ^ t = u / 10 * 10 ^ t * 10 := by rw [mul_right_comm, ← hu]
        _ = w * 10 ^ (s + 1) := by rw [ih, pow_succ, mul_assoc]
    · cases h
      rfl

/-- Zeros written at the end of the fraction do not change the key. -/
theorem ofDecimal_mul_pow (u : Int) (s : Nat) : ∀ k : Nat,
    ofDecimal (u * 10 ^ k) (s + k) = ofDecimal u s
  | 0 => by simp
  | k + 1 => by
    rw [pow_succ, ← mul_assoc, ← Nat.add_assoc, ofDecimal, if_pos (Int.mul_emod_left _ _),
      Int.mul_ediv_cancel _ (by decide)]
    exact ofDecimal_mul_pow u s k

/-- **Decimal keys are a normal form**: they are equal when the numbers are. -/
theorem ofDecimal_eq_iff {u w : Int} {s t : Nat} :
    ofDecimal u s = ofDecimal w t ↔ u * 10 ^ t = w * 10 ^ s := by
  have hpow : ∀ n : Nat, (10 : Int) ^ n ≠ 0 := fun n => pow_ne_zero n (by decide)
  constructor
  · intro h
    rcases ofDecimal_cases u s with ⟨v, hv⟩ | ⟨v, r, hv⟩
    · rw [eq_mul_of_ofDecimal_eq_int hv, eq_mul_of_ofDecimal_eq_int (h.symm.trans hv)]
      ring
    · have hu := mul_eq_mul_of_ofDecimal_eq_decimal hv
      have hw := mul_eq_mul_of_ofDecimal_eq_decimal (h.symm.trans hv)
      refine mul_right_cancel₀ (hpow r) ?_
      calc u * 10 ^ t * 10 ^ r = v * 10 ^ s * 10 ^ t := by rw [mul_right_comm, hu]
        _ = w * 10 ^ s * 10 ^ r := by rw [mul_right_comm, ← hw, mul_right_comm]
  · -- The decimal of the smaller scale is the other one without some zeros.
    have hle : ∀ {u w : Int} {s t : Nat}, s ≤ t → u * 10 ^ t = w * 10 ^ s →
        ofDecimal u s = ofDecimal w t := by
      intro u w s t hst h
      obtain ⟨k, rfl⟩ := Nat.exists_eq_add_of_le hst
      have hw : w = u * 10 ^ k := by
        refine mul_right_cancel₀ (hpow s) ?_
        rw [← h, pow_add]
        ring
      rw [hw, ofDecimal_mul_pow]
    intro h
    rcases Nat.le_total s t with hst | hst
    · exact hle hst h
    · exact (hle hst h.symm).symm

/-! ### Keys of floats -/

/-- **The key of a float is that of an integer** only for a whole number below `2 ^ 63`. -/
theorem ofDouble_eq_int_iff {x : FloatValue} {v : Int} :
    ofDouble x = int v ↔ double.number? x = some (v : ℚ) ∧ v.natAbs < 2 ^ 63 := by
  cases x with
  | nan | infinity s => simp [ofDouble, FloatFormat.number?]
  | finite s n =>
    rw [FloatFormat.number?_finite_eq_iff, ofDouble]
    have hpos := Nat.two_pow_pos double.unitPlaces
    generalize 2 ^ double.unitPlaces = unit at hpos ⊢
    constructor
    · intro h
      split at h
      · rename_i hn
        cases h
        rw [FloatValue.natAbs_signedUnits, ← FloatValue.signedUnits_mul,
          Nat.div_mul_cancel (Nat.dvd_of_mod_eq_zero hn.1)]
        exact ⟨rfl, hn.2⟩
      · cases h
    · rintro ⟨h, hv⟩
      have hn : n = v.natAbs * unit := by
        rw [← FloatValue.natAbs_signedUnits s n, h, Int.natAbs_mul, Int.natAbs_natCast]
      subst hn
      rw [FloatValue.signedUnits_mul] at h
      rw [Nat.mul_mod_left, Nat.mul_div_cancel _ hpos, if_pos ⟨rfl, hv⟩]
      congr 1
      exact Int.eq_of_mul_eq_mul_right (by omega) h

theorem ofDouble_cases (x : FloatValue) : (∃ v, ofDouble x = int v) ∨
    ofDouble x = float (FloatType.float64.encode x) := by
  cases x with
  | nan | infinity s => exact .inr rfl
  | finite s n =>
    rw [ofDouble]
    split
    · exact .inl ⟨_, rfl⟩
    · exact .inr rfl

/-- A decimal has the key of a float when both stand for one whole number below `2 ^ 63`. -/
theorem ofDecimal_eq_ofDouble_iff {u : Int} {s : Nat} {x : FloatValue} :
    ofDecimal u s = ofDouble x ↔
      ∃ v : Int, u = v * 10 ^ s ∧ double.number? x = some (v : ℚ) ∧ v.natAbs < 2 ^ 63 := by
  constructor
  · intro h
    rcases ofDecimal_cases u s with ⟨v, hv⟩ | ⟨w, t, hv⟩
    · exact ⟨v, eq_mul_of_ofDecimal_eq_int hv, ofDouble_eq_int_iff.mp (h ▸ hv)⟩
    · rcases ofDouble_cases x with ⟨v, hx⟩ | hx
      · rw [hv, hx] at h
        cases h
      · rw [hv, hx] at h
        cases h
  · rintro ⟨v, rfl, hx⟩
    have hv : ofDecimal (v * 10 ^ s) s = ofDecimal v 0 := ofDecimal_eq_iff.mpr (by simp)
    rw [hv, ofDouble_eq_int_iff.mpr hx, ofDecimal]

/-- **Two floats have one key when they compare as equal**: the zeros do, NaN does not. -/
theorem ofDouble_eq_iff {x y : FloatValue} (hx : double.Valid x) (hy : double.Valid y) :
    ofDouble x = ofDouble y ∧ x ≠ .nan ↔ x.compare? y = some .eq := by
  constructor
  · rintro ⟨h, hnan⟩
    rcases ofDouble_cases x with ⟨v, hv⟩ | hv
    · have hxv := (ofDouble_eq_int_iff.mp hv).1
      have hyv := (ofDouble_eq_int_iff.mp (h.symm.trans hv)).1
      obtain ⟨s, m, rfl⟩ := FloatFormat.exists_finite_of_number? hxv
      obtain ⟨t, n, rfl⟩ := FloatFormat.exists_finite_of_number? hyv
      rw [FloatFormat.number?_finite_eq_iff] at hxv hyv
      exact FloatValue.compare?_eq_iff.mpr (.inr ⟨s, m, t, n, rfl, rfl, hxv.trans hyv.symm⟩)
    · rcases ofDouble_cases y with ⟨w, hw⟩ | hw
      · rw [hv, hw] at h
        cases h
      · rw [hv, hw, float.injEq] at h
        rw [(FloatFormat.encode_inj (by decide) (by decide) hx hy).mp h] at hnan ⊢
        exact FloatValue.compare?_self hnan
  · intro h
    rcases FloatValue.compare?_eq_iff.mp h with ⟨s, rfl, rfl⟩ | ⟨s, m, t, n, rfl, rfl, hst⟩
    · exact ⟨rfl, by simp⟩
    · refine ⟨?_, by simp⟩
      obtain ⟨rfl, rfl | rfl⟩ := FloatValue.signedUnits_inj.mp hst
      · rfl
      · have hzero : ∀ b, ofDouble (.finite b 0) = int 0 := fun b => by
          rw [ofDouble_eq_int_iff, FloatFormat.number?_finite_eq_iff, Int.zero_mul]
          exact ⟨by cases b <;> rfl, by decide⟩
        rw [hzero, hzero]

end Key

/-! ### Pairs of numbers -/

namespace Scalar

/-- **Two values stand for one number**, a whole one below `2 ^ 63` when one of them is a float. -/
def SameNumber (a b : Scalar) : Prop :=
  ∃ q, a.number? = some q ∧ b.number? = some q ∧
    (a.isFloat = true ∨ b.isFloat = true → ∃ v : Int, q = v ∧ v.natAbs < 2 ^ 63)

theorem SameNumber.symm {a b : Scalar} (h : a.SameNumber b) : b.SameNumber a := by
  obtain ⟨q, ha, hb, hq⟩ := h
  exact ⟨q, hb, ha, fun hf => hq hf.symm⟩

theorem exists_key_eq_ofDecimal {a : Scalar} (h : a.isExact = true) :
    ∃ (u : Int) (s : Nat), a.key = .ofDecimal u s ∧ a.number? = some ((u : ℚ) / 10 ^ s) ∧
      a.isFloat = false := by
  cases a with
  | int t v => exact ⟨v.val, 0, rfl, by simp [number?], rfl⟩
  | decimal d => exact ⟨d.unscaled.val, d.scale, rfl, rfl, rfl⟩
  | _ => cases h

theorem div_pow_eq_iff {u w : Int} {s t : Nat} :
    (u : ℚ) / 10 ^ s = w / 10 ^ t ↔ u * 10 ^ t = w * 10 ^ s := by
  have hpow : ∀ n : Nat, (10 : ℚ) ^ n ≠ 0 := fun n => pow_ne_zero n (by norm_num)
  rw [div_eq_div_iff (hpow s) (hpow t)]
  exact_mod_cast Iff.rfl

/-- **Keys of numbers of which not both are floats** are equal when the numbers are the same. -/
theorem key_eq_iff_sameNumber {a b : Scalar} (ha : a.isExact = true)
    (hb : b.isExact = true ∨ b.isFloat = true) : a.key = b.key ↔ a.SameNumber b := by
  obtain ⟨u, s, hakey, hanum, hafloat⟩ := exists_key_eq_ofDecimal ha
  rcases hb with hb | hb
  · obtain ⟨w, t, hbkey, hbnum, hbfloat⟩ := exists_key_eq_ofDecimal hb
    rw [hakey, hbkey, Key.ofDecimal_eq_iff, ← div_pow_eq_iff]
    constructor
    · intro h
      exact ⟨_, hanum, hbnum.trans (congrArg some h.symm), by simp [hafloat, hbfloat]⟩
    · rintro ⟨q, hq, hq', -⟩
      rw [hanum, Option.some_inj] at hq
      rw [hbnum, Option.some_inj] at hq'
      rw [hq, hq']
  · cases b with
    | float t v =>
      have hwhole : ∀ x : Int, (u : ℚ) / 10 ^ s = x ↔ u = x * 10 ^ s := fun x => by
        simpa using div_pow_eq_iff (u := u) (s := s) (w := x) (t := 0)
      rw [hakey, key, Key.ofDecimal_eq_ofDouble_iff, FloatType.number?_toDouble]
      constructor
      · rintro ⟨x, hu, hnum, hx⟩
        refine ⟨x, ?_, hnum, fun _ => ⟨x, rfl, hx⟩⟩
        rw [hanum, (hwhole x).mpr hu]
      · rintro ⟨q, hq, hq', hwq⟩
        obtain ⟨x, rfl, hx⟩ := hwq (.inr rfl)
        rw [hanum, Option.some_inj] at hq
        exact ⟨x, (hwhole x).mp hq, hq', hx⟩
    | _ => cases hb

end Scalar

end TableQuery
