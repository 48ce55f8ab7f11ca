import Mathlib.Algebra.Order.Field.Rat
import Mathlib.Tactic.Linarith
import Mathlib.Tactic.Positivity
import Mathlib.Tactic.Ring
import TableQuery.Proofs.Number.Monotone

/-! # The order of decimals in their 64-bit forms

Decimals are compared through their 64-bit forms. The form of a short decimal, of an unscaled
integer below `2 ^ 52` and at most 22 places, is the number rounded once, and different numbers of
this size are never rounded to one value (`compare?_toDouble_of_short`). With more digits the
unscaled integer is rounded, too, and with more places the power of ten. Up to 38 places the form
is off by a small part of the number all the same (`exists_toDouble_error`), so numbers that are
farther apart keep their order (`compare?_toDouble_of_apart`). Between decimals of one scale an
order may be lost, but it is never turned round (`order_toDouble_of_scale_eq`). -/

namespace TableQuery

-- Powers are those of the core library, also where other instances are in scope.
attribute [local instance (2000)] instPowNat

namespace Decimal

/-! ### The number of a decimal -/

/-- The number that the decimal stands for. -/
def number (d : Decimal) : ℚ := d.unscaled.val / 10 ^ d.scale

variable {d e : Decimal}

theorem number_lt_iff : d.number < e.number ↔
    d.unscaled.val * 10 ^ e.scale < e.unscaled.val * 10 ^ d.scale := by
  rw [number, number, div_lt_div_iff₀ (by positivity) (by positivity)]
  exact_mod_cast Iff.rfl

theorem number_eq_iff : d.number = e.number ↔
    d.unscaled.val * 10 ^ e.scale = e.unscaled.val * 10 ^ d.scale := by
  rw [number, number, div_eq_div_iff (by positivity) (by positivity)]
  exact_mod_cast Iff.rfl

theorem number_neg_iff : d.number < 0 ↔ d.unscaled.val < 0 := by
  have hpos : (0 : ℚ) < 10 ^ d.scale := by positivity
  rw [number, div_lt_iff₀ hpos, zero_mul, Int.cast_lt_zero]

theorem abs_number : |d.number| = d.unscaled.val.natAbs / 10 ^ d.scale := by
  have hpos : (0 : ℚ) < 10 ^ d.scale := by positivity
  rw [number, abs_div, abs_of_pos hpos, Nat.cast_natAbs, Int.cast_abs]

/-! ### Finite forms -/

/-- A power of ten that is finite leaves the quotient finite. -/
theorem toDouble_eq_finite {c : Nat}
    (h : double.pow (double.ofInt 10) d.scale = .finite false c) :
    d.toDouble = .finite (d.unscaled.val < 0) (double.roundUnits
      (double.roundUnits (d.unscaled.val.natAbs * 2 ^ double.unitPlaces) 1 *
        2 ^ double.unitPlaces) c) := by
  have hone := atLeastOne_pow_ten d.scale
  rw [h] at hone
  rw [toDouble, h, FloatFormat.div_ofInt_eq_finite d.ofInt_unscaled hone]

/-! ### Short decimals -/

/-- **A short decimal**: its unscaled integer and its power of ten are 64-bit values, and the
integer has a bit to spare. -/
def Short (d : Decimal) : Prop := d.unscaled.val.natAbs < 2 ^ 52 ∧ d.scale ≤ 22

/-- The number of units of the 64-bit form of a short decimal. -/
def units (d : Decimal) : Nat :=
  double.roundUnits (d.unscaled.val.natAbs * 2 ^ double.unitPlaces * 2 ^ double.unitPlaces)
    (10 ^ d.scale * 2 ^ double.unitPlaces)

theorem pow_ten_of_le {n : Nat} (h : n ≤ 22) :
    double.pow (double.ofInt 10) n = .finite false (10 ^ n * 2 ^ double.unitPlaces) := by
  have hall : ∀ n : Fin 23,
      double.pow (double.ofInt 10) n = .finite false (10 ^ n.val * 2 ^ double.unitPlaces) := by
    decide +kernel
  exact hall ⟨n, by omega⟩

theorem denominator_pos (d : Decimal) : 0 < 10 ^ d.scale * 2 ^ double.unitPlaces :=
  Nat.mul_pos (Nat.pow_pos (by decide)) (Nat.two_pow_pos _)

/-- The 64-bit form of a short decimal is rounded once. -/
theorem toDouble_of_short (h : d.Short) : d.toDouble = .finite (d.unscaled.val < 0) d.units := by
  have hu : d.unscaled.val.natAbs < 2 ^ (double.fractionBits + 1) := Nat.lt_trans h.1 (by decide)
  have hheld := FloatFormat.roundUnits_of_held (f := double) Nat.one_pos
    (FloatFormat.held_mul double.unitPlaces hu)
  rw [Nat.mul_one] at hheld
  rw [toDouble_eq_finite (pow_ten_of_le h.2), hheld]
  rfl

theorem units_eq_zero (h : d.unscaled.val = 0) : d.units = 0 := by
  rw [units, h, Int.natAbs_zero, Nat.zero_mul, Nat.zero_mul, FloatFormat.roundUnits_zero]

/-- The quotient of a short decimal other than zero is in the range of full significands. -/
theorem two_pow_le_quotient (h : d.Short) (hu : d.unscaled.val ≠ 0) : 2 ^ double.fractionBits ≤
    d.unscaled.val.natAbs * 2 ^ double.unitPlaces * 2 ^ double.unitPlaces /
      (10 ^ d.scale * 2 ^ double.unitPlaces) := by
  have hpow : 10 ^ d.scale ≤ 10 ^ 22 := Nat.pow_le_pow_right (by decide) h.2
  have hunits : 2 ^ double.fractionBits * 10 ^ 22 ≤ 2 ^ double.unitPlaces := by decide +kernel
  rw [Nat.le_div_iff_mul_le d.denominator_pos, ← Nat.mul_assoc]
  refine Nat.mul_le_mul_right _ ?_
  calc 2 ^ double.fractionBits * 10 ^ d.scale ≤ 2 ^ double.fractionBits * 10 ^ 22 :=
        Nat.mul_le_mul_left _ hpow
    _ ≤ 2 ^ double.unitPlaces := hunits
    _ ≤ d.unscaled.val.natAbs * 2 ^ double.unitPlaces :=
        Nat.le_mul_of_pos_left _ (Int.natAbs_pos.mpr hu)

theorem units_pos (h : d.Short) (hu : d.unscaled.val ≠ 0) : 0 < d.units :=
  Nat.lt_of_lt_of_le (Nat.two_pow_pos _)
    (FloatFormat.two_pow_le_roundUnits (two_pow_le_quotient h hu))

/-- At a common scale, the smaller of two short integers is still so short that the larger one is
farther from it than the rounding of both. -/
theorem short_gap (hd : d.Short) (he : e.Short)
    (h : d.unscaled.val.natAbs * 10 ^ e.scale < e.unscaled.val.natAbs * 10 ^ d.scale) :
    (2 ^ 53 + 1) * (d.unscaled.val.natAbs * 10 ^ e.scale) <
      (2 ^ 53 - 1) * (e.unscaled.val.natAbs * 10 ^ d.scale) := by
  have hgap : ∀ {a b c : Nat}, a < 2 ^ 52 → 0 < c → a * c < b * c →
      (2 ^ 53 + 1) * (a * c) < (2 ^ 53 - 1) * (b * c) := by
    intro a b c ha hc hab
    have hlt := Nat.lt_of_mul_lt_mul_right hab
    rw [← Nat.mul_assoc, ← Nat.mul_assoc]
    exact Nat.mul_lt_mul_of_pos_right (by omega) hc
  have hpos : ∀ n : Nat, 0 < 10 ^ n := fun n => Nat.pow_pos (by decide)
  rcases Nat.le_total d.scale e.scale with hle | hle
  · obtain ⟨k, hk⟩ := Nat.exists_eq_add_of_le' hle
    rw [hk, Nat.pow_add, ← Nat.mul_assoc _ (10 ^ k)] at h ⊢
    have hlt := Nat.lt_of_mul_lt_mul_right h
    exact hgap (Nat.lt_trans hlt he.1) (hpos _) h
  · obtain ⟨k, hk⟩ := Nat.exists_eq_add_of_le' hle
    rw [hk, Nat.pow_add, ← Nat.mul_assoc _ (10 ^ k)] at h ⊢
    exact hgap hd.1 (hpos _) h

/-- The units cancel from the quotients of two decimals. -/
theorem mul_units (a p unit : Nat) :
    a * unit * unit * (p * unit) = a * p * (unit * (unit * unit)) := by
  ac_rfl

/-- **Short decimals are rounded strictly in the order of their magnitudes.** -/
theorem units_lt (hd : d.Short) (he : e.Short)
    (h : d.unscaled.val.natAbs * 10 ^ e.scale < e.unscaled.val.natAbs * 10 ^ d.scale) :
    d.units < e.units := by
  have hw : e.unscaled.val ≠ 0 := by
    intro hw
    simp [hw] at h
  by_cases hu : d.unscaled.val = 0
  · rw [units_eq_zero hu]
    exact units_pos he hw
  · refine FloatFormat.roundUnits_lt d.denominator_pos e.denominator_pos
      (two_pow_le_quotient hd hu) (two_pow_le_quotient he hw) ?_
    have hpos := Nat.two_pow_pos double.unitPlaces
    have hgap := Nat.mul_lt_mul_of_pos_right (short_gap hd he h)
      (Nat.mul_pos hpos (Nat.mul_pos hpos hpos))
    rwa [mul_units, mul_units, ← Nat.mul_assoc, ← Nat.mul_assoc (_ - 1)]

theorem units_le (h : d.unscaled.val.natAbs * 10 ^ e.scale = e.unscaled.val.natAbs * 10 ^ d.scale) :
    d.units ≤ e.units := by
  refine FloatFormat.roundUnits_mono d.denominator_pos e.denominator_pos (Nat.le_of_eq ?_)
  rw [mul_units, mul_units, h]

theorem scaled_neg_iff (d : Decimal) (n : Nat) :
    d.unscaled.val * 10 ^ n < 0 ↔ d.unscaled.val < 0 := by
  have hpos : (0 : Int) < 10 ^ n := by positivity
  constructor
  · exact fun h => neg_of_mul_neg_left h hpos.le
  · exact fun h => mul_neg_of_neg_of_pos h hpos

theorem natAbs_scaled (d : Decimal) (n : Nat) :
    (d.unscaled.val * 10 ^ n).natAbs = d.unscaled.val.natAbs * 10 ^ n := by
  rw [Int.natAbs_mul, Int.natAbs_pow]
  rfl

/-- **Short decimals are rounded strictly in their order.** -/
theorem signedUnits_lt (hd : d.Short) (he : e.Short) (h : d.number < e.number) :
    FloatValue.signedUnits (d.unscaled.val < 0) d.units <
      FloatValue.signedUnits (e.unscaled.val < 0) e.units := by
  rw [number_lt_iff] at h
  have hlt := units_lt hd he
  have hgt := units_lt he hd
  have hpos := units_pos hd
  have hneg := scaled_neg_iff d e.scale
  have hneg' := scaled_neg_iff e d.scale
  rw [← natAbs_scaled, ← natAbs_scaled] at hlt hgt
  simp only [FloatValue.signedUnits, decide_eq_true_eq]
  split <;> split <;> omega

theorem signedUnits_eq (h : d.number = e.number) :
    FloatValue.signedUnits (d.unscaled.val < 0) d.units =
      FloatValue.signedUnits (e.unscaled.val < 0) e.units := by
  rw [number_eq_iff] at h
  have habs := congrArg Int.natAbs h
  rw [natAbs_scaled, natAbs_scaled] at habs
  have hsign : (d.unscaled.val < 0) = (e.unscaled.val < 0) := by
    rw [← scaled_neg_iff d e.scale, h, scaled_neg_iff]
  rw [Nat.le_antisymm (units_le habs) (units_le habs.symm)]
  simp only [hsign]

/-- **Short decimals compare exactly.** -/
theorem compare?_toDouble_of_short (hd : d.Short) (he : e.Short) :
    d.toDouble.compare? e.toDouble = some (compare d.number e.number) := by
  rw [toDouble_of_short hd, toDouble_of_short he, FloatValue.compare?, Option.some_inj]
  exact compare_congr (signedUnits_lt hd he) signedUnits_eq (signedUnits_lt he hd)

/-! ### Decimals of one scale -/

/-- **Decimals of one scale are converted in their order.** -/
theorem isLE_order_toDouble (hscale : d.scale = e.scale) (h : d.number ≤ e.number) :
    (FloatValue.order d.toDouble e.toDouble).isLE := by
  have hpos : (0 : ℚ) < 10 ^ e.scale := by positivity
  rw [number, number, hscale, div_le_div_iff_of_pos_right hpos] at h
  have hle := FloatFormat.isLE_order_ofInt (f := double) (Int.cast_le.mp h)
  rw [toDouble, toDouble, hscale]
  rw [ofInt_unscaled, ofInt_unscaled] at hle ⊢
  exact FloatFormat.isLE_order_div (atLeastOne_pow_ten e.scale) hle

/-- **The order of decimals of one scale is never turned round**, only lost. -/
theorem order_toDouble_of_scale_eq (h : d.scale = e.scale) :
    FloatValue.order d.toDouble e.toDouble = compare d.number e.number ∨
      FloatValue.order d.toDouble e.toDouble = .eq := by
  have hswap : FloatValue.order e.toDouble d.toDouble =
      (FloatValue.order d.toDouble e.toDouble).swap := Std.OrientedCmp.eq_swap
  refine eq_compare_or_eq (isLE_order_toDouble h) fun hge => ?_
  rw [← hswap]
  exact isLE_order_toDouble h.symm hge

/-- A decimal without places is converted as the integer is. -/
theorem toDouble_of_scale_eq_zero (h : d.scale = 0) :
    d.toDouble = double.ofInt d.unscaled.val := by
  rw [toDouble, h, FloatFormat.pow_zero, FloatFormat.div_one (FloatFormat.valid_ofInt _)]

/-! ### The error of the 64-bit form -/

/-- Up to 38 places, a power of ten is almost exact. -/
theorem exists_pow_ten {n : Nat} (h : n ≤ 38) :
    ∃ c, double.pow (double.ofInt 10) n = .finite false c ∧
      (2 ^ 51 - 1) * (10 ^ n * 2 ^ double.unitPlaces) ≤ 2 ^ 51 * c ∧
      2 ^ 51 * c ≤ (2 ^ 51 + 1) * (10 ^ n * 2 ^ double.unitPlaces) := by
  have hall : ∀ n : Fin 39,
      let c := (double.pow (double.ofInt 10) n).units.toNat
      double.pow (double.ofInt 10) n = .finite false c ∧
        (2 ^ 51 - 1) * (10 ^ n.val * 2 ^ double.unitPlaces) ≤ 2 ^ 51 * c ∧
        2 ^ 51 * c ≤ (2 ^ 51 + 1) * (10 ^ n.val * 2 ^ double.unitPlaces) := by
    decide +kernel
  exact ⟨_, hall ⟨n, by omega⟩⟩

/-- The errors of a dividend, of a divisor and of their quotient add up. -/
theorem quotient_error {a unit m ten c n : Nat} (hunit : 0 < unit)
    (hm : 2 ^ 53 * m ≤ (2 ^ 53 + 1) * (a * unit) ∧ (2 ^ 53 - 1) * (a * unit) ≤ 2 ^ 53 * m)
    (hc : (2 ^ 51 - 1) * (ten * unit) ≤ 2 ^ 51 * c ∧ 2 ^ 51 * c ≤ (2 ^ 51 + 1) * (ten * unit))
    (hn : 2 ^ 53 * (n * c) ≤ (2 ^ 53 + 1) * (m * unit) ∧
      (2 ^ 53 - 1) * (m * unit) ≤ 2 ^ 53 * (n * c)) :
    2 ^ 50 * (a * unit) ≤ 2 ^ 50 * (n * ten) + a * unit ∧
      2 ^ 50 * (n * ten) ≤ 2 ^ 50 * (a * unit) + a * unit := by
  have hm1 := Nat.mul_le_mul_right unit hm.1
  have hm2 := Nat.mul_le_mul_right unit hm.2
  have hc1 := Nat.mul_le_mul_right n hc.1
  have hc2 := Nat.mul_le_mul_right n hc.2
  simp only [Nat.mul_assoc] at hm1 hm2 hc1 hc2 hn
  rw [Nat.mul_comm c n, Nat.mul_comm unit n, Nat.mul_left_comm ten n] at hc1 hc2
  constructor <;> refine Nat.le_of_mul_le_mul_right ?_ hunit <;>
    simp only [Nat.add_mul, Nat.mul_assoc] <;> omega

/-- The quotient of rounded numbers is in the range of full significands. -/
theorem full_quotient {a unit m ten c : Nat} (ha : 1 ≤ a) (hten : ten ≤ 10 ^ 38)
    (hunit : 2 ^ 54 * 10 ^ 38 ≤ unit) (hm : (2 ^ 53 - 1) * (a * unit) ≤ 2 ^ 53 * m)
    (hc : 2 ^ 51 * c ≤ (2 ^ 51 + 1) * (ten * unit)) : 2 ^ 52 * c ≤ m * unit := by
  have hle : unit ≤ a * unit := Nat.le_mul_of_pos_left _ ha
  have hc' := Nat.mul_le_mul_right unit hten
  have hm' : unit ≤ 2 * m := by omega
  have hsquare := Nat.mul_le_mul_right unit hm'
  have hunit' := Nat.mul_le_mul_right unit hunit
  rw [Nat.mul_assoc] at hsquare
  omega

/-- The 64-bit form of a decimal of at most 38 places is almost exact. -/
theorem exists_toDouble_error (h : d.scale ≤ 38) :
    ∃ n, d.toDouble = .finite (d.unscaled.val < 0) n ∧
      2 ^ 50 * (d.unscaled.val.natAbs * 2 ^ double.unitPlaces) ≤
        2 ^ 50 * (n * 10 ^ d.scale) + d.unscaled.val.natAbs * 2 ^ double.unitPlaces ∧
      2 ^ 50 * (n * 10 ^ d.scale) ≤
        2 ^ 50 * (d.unscaled.val.natAbs * 2 ^ double.unitPlaces) +
          d.unscaled.val.natAbs * 2 ^ double.unitPlaces := by
  obtain ⟨c, hc, hpow⟩ := exists_pow_ten h
  refine ⟨_, toDouble_eq_finite hc, ?_⟩
  have hpos := Nat.two_pow_pos double.unitPlaces
  by_cases hu : d.unscaled.val = 0
  · rw [hu, Int.natAbs_zero, Nat.zero_mul, FloatFormat.roundUnits_zero, Nat.zero_mul,
      FloatFormat.roundUnits_zero]
    omega
  · have hone : 1 ≤ d.unscaled.val.natAbs := Int.natAbs_pos.mpr hu
    have hten : 10 ^ d.scale ≤ 10 ^ 38 := Nat.pow_le_pow_right (by decide) h
    have hunit : 2 ^ 54 * 10 ^ 38 ≤ 2 ^ double.unitPlaces := by decide +kernel
    have hcpos : 0 < c := by
      have := Nat.mul_pos (Nat.pow_pos (n := d.scale) (show 0 < 10 by decide)) hpos
      omega
    have hm := FloatFormat.mul_roundUnits_le (f := double)
      (d.unscaled.val.natAbs * 2 ^ double.unitPlaces) Nat.one_pos (by
        rw [Nat.div_one]
        exact Nat.le_trans (Nat.pow_le_pow_right (by decide) (by decide))
          (Nat.le_mul_of_pos_left _ hone))
    rw [show double.fractionBits + 1 = 53 from rfl, Nat.mul_one] at hm
    generalize double.roundUnits (d.unscaled.val.natAbs * 2 ^ double.unitPlaces) 1 = m at hm ⊢
    have hn := FloatFormat.mul_roundUnits_le (f := double) (m * 2 ^ double.unitPlaces) hcpos (by
      rw [Nat.le_div_iff_mul_le hcpos]
      exact full_quotient hone hten hunit hm.2 hpow.2)
    rw [show double.fractionBits + 1 = 53 from rfl] at hn
    exact quotient_error hpos hm hpow hn

/-- In fractions: the error is a small part of the number. -/
theorem exists_abs_sub_le (h : d.scale ≤ 38) :
    ∃ s n, d.toDouble = .finite s n ∧
      |(FloatValue.signedUnits s n : ℚ) - d.number * (2 ^ double.unitPlaces : Nat)| ≤
        |d.number| * (2 ^ double.unitPlaces : Nat) / 2 ^ 50 := by
  obtain ⟨n, hd, hlo, hhi⟩ := exists_toDouble_error h
  refine ⟨_, n, hd, ?_⟩
  generalize 2 ^ double.unitPlaces = unit at hlo hhi ⊢
  have hmag : |(n : ℚ) - |d.number| * unit| ≤ |d.number| * unit / 2 ^ 50 := by
    have hpos : (0 : ℚ) < 10 ^ d.scale := by positivity
    have hlo' : (2 : ℚ) ^ 50 * (d.unscaled.val.natAbs * unit) ≤
        2 ^ 50 * (n * 10 ^ d.scale) + d.unscaled.val.natAbs * unit := by exact_mod_cast hlo
    have hhi' : (2 : ℚ) ^ 50 * (n * 10 ^ d.scale) ≤
        2 ^ 50 * (d.unscaled.val.natAbs * unit) + d.unscaled.val.natAbs * unit := by
      exact_mod_cast hhi
    have habs : (d.unscaled.val.natAbs : ℚ) = |d.number| * 10 ^ d.scale := by
      rw [abs_number, div_mul_cancel₀ _ hpos.ne']
    rw [habs] at hlo' hhi'
    have hn : (n : ℚ) = n * 10 ^ d.scale / 10 ^ d.scale := (mul_div_cancel_right₀ _ hpos.ne').symm
    rw [abs_le]
    constructor
    · refine le_of_mul_le_mul_right ?_ hpos
      linarith
    · refine le_of_mul_le_mul_right ?_ hpos
      linarith
  by_cases hneg : d.unscaled.val < 0
  · have habs : |d.number| = -d.number := abs_of_neg (number_neg_iff.mpr hneg)
    rw [habs] at hmag ⊢
    rw [FloatValue.signedUnits, if_pos (decide_eq_true hneg), abs_sub_comm]
    convert hmag using 2
    push_cast
    ring
  · have habs : |d.number| = d.number :=
      abs_of_nonneg (not_lt.mp fun h => hneg (number_neg_iff.mp h))
    rw [habs] at hmag ⊢
    rw [FloatValue.signedUnits, if_neg (by simpa using hneg)]
    exact hmag

/-- Values near numbers that are apart stand as these do. -/
theorem lt_of_apart {x y : Int} {p q unit : ℚ} (hunit : 0 < unit)
    (hx : |x - p * unit| ≤ |p| * unit / 2 ^ 50) (hy : |y - q * unit| ≤ |q| * unit / 2 ^ 50)
    (h : max |p| |q| ≤ 2 ^ 48 * |p - q|) (hpq : p < q) : x < y := by
  have hgap : |p - q| = q - p := by rw [abs_sub_comm, abs_of_pos (sub_pos.mpr hpq)]
  rw [hgap] at h
  have hp := mul_le_mul_of_nonneg_right ((le_max_left |p| |q|).trans h) hunit.le
  have hq := mul_le_mul_of_nonneg_right ((le_max_right |p| |q|).trans h) hunit.le
  have hpos := mul_pos (sub_pos.mpr hpq) hunit
  have hx' := (abs_le.mp hx).2
  have hy' := (abs_le.mp hy).1
  have hlt : (x : ℚ) < y := by linarith
  exact_mod_cast hlt

/-- **Values near numbers that are apart are ordered as these are.** A number is apart from itself
only if it is zero, and a value near zero is zero. -/
theorem compare_of_apart {x y : Int} {p q unit : ℚ} (hunit : 0 < unit)
    (hx : |x - p * unit| ≤ |p| * unit / 2 ^ 50) (hy : |y - q * unit| ≤ |q| * unit / 2 ^ 50)
    (h : max |p| |q| ≤ 2 ^ 48 * |p - q|) : compare x y = compare p q := by
  have h' : max |q| |p| ≤ 2 ^ 48 * |q - p| := by
    rw [max_comm, abs_sub_comm]
    exact h
  refine compare_congr (lt_of_apart hunit hx hy h) (fun heq => ?_) (lt_of_apart hunit hy hx h')
  subst heq
  have hzero : p = 0 := by
    rw [max_self, sub_self, abs_zero, mul_zero, abs_nonpos_iff] at h
    exact h
  rw [hzero, abs_zero, zero_mul, zero_div, sub_zero, abs_nonpos_iff, Int.cast_eq_zero] at hx hy
  rw [hx, hy]

/-- **Numbers that are apart keep their order**: up to 38 places, two numbers compare exactly if
they differ by some part of them. -/
theorem compare?_toDouble_of_apart (hd : d.scale ≤ 38) (he : e.scale ≤ 38)
    (h : max |d.number| |e.number| ≤ 2 ^ 48 * |d.number - e.number|) :
    d.toDouble.compare? e.toDouble = some (compare d.number e.number) := by
  have hunit : (0 : ℚ) < (2 ^ double.unitPlaces : Nat) := Nat.cast_pos.mpr (Nat.two_pow_pos _)
  obtain ⟨s, m, hds, hdm⟩ := exists_abs_sub_le hd
  obtain ⟨t, n, het, hen⟩ := exists_abs_sub_le he
  rw [hds, het, FloatValue.compare?, compare_of_apart hunit hdm hen h]

/-! ### Whole numbers -/

/-- A short decimal that is whole is not rounded. -/
theorem toDouble_of_short_of_dvd (h : d.Short) {v : Int} (hv : d.unscaled.val = v * 10 ^ d.scale) :
    d.toDouble = .finite (d.unscaled.val < 0) (v.natAbs * 2 ^ double.unitPlaces) := by
  have habs : d.unscaled.val.natAbs = v.natAbs * 10 ^ d.scale := by
    rw [hv, Int.natAbs_mul, Int.natAbs_pow]
    rfl
  have hpos : 0 < 10 ^ d.scale := Nat.pow_pos (by decide)
  have hlt : v.natAbs < 2 ^ (double.fractionBits + 1) := by
    refine Nat.lt_of_le_of_lt ?_ (Nat.lt_trans h.1 (by decide))
    rw [habs]
    exact Nat.le_mul_of_pos_right _ hpos
  have hnum : d.unscaled.val.natAbs * 2 ^ double.unitPlaces * 2 ^ double.unitPlaces =
      v.natAbs * 2 ^ double.unitPlaces * (10 ^ d.scale * 2 ^ double.unitPlaces) := by
    rw [habs]
    generalize 2 ^ double.unitPlaces = unit
    ac_rfl
  rw [toDouble_of_short h, units, hnum,
    FloatFormat.roundUnits_of_held d.denominator_pos (FloatFormat.held_mul _ hlt)]

end Decimal

end TableQuery
