import TableQuery.Number.Decimal
import TableQuery.Proofs.Number.Binary

/-! # The 64-bit forms of exact numbers

Integers and decimals are compared with other numbers as 64-bit values. None of them is NaN there
(`ofInt_ne_nan`, `Decimal.toDouble_ne_nan`), so only a NaN among the operands leaves two numbers
without an order (`FloatValue.exists_compare?`); all other values are in one total order
(`FloatValue.order`). For a decimal this is a matter of range: its unscaled integer is finite, and
the power of ten it is divided by is at least one or infinite. -/

namespace TableQuery

-- Powers are those of the core library, also where other instances are in scope.
attribute [local instance (2000)] instPowNat

/-! ### The order of values -/

namespace FloatValue

/-- Where a value stands: below, among or above the finite ones. -/
def tier : FloatValue → Int
  | infinity s => if s then -1 else 1
  | _ => 0

/-- The units of a finite value with its sign. -/
def units : FloatValue → Int
  | finite s n => signedUnits s n
  | _ => 0

/-- **The order of values**: infinities outside, finite ones by their units. -/
def order : FloatValue → FloatValue → Ordering := compareLex (compareOn tier) (compareOn units)

instance : Std.TransCmp order := inferInstanceAs (Std.TransCmp (compareLex _ _))

theorem compare?_eq_order {x y : FloatValue} (hx : x ≠ nan) (hy : y ≠ nan) :
    x.compare? y = some (order x y) := by
  cases x with
  | nan => exact absurd rfl hx
  | infinity s =>
    cases y with
    | nan => exact absurd rfl hy
    | infinity t => cases s <;> cases t <;> rfl
    | finite t n => cases s <;> rfl
  | finite s m =>
    cases y with
    | nan => exact absurd rfl hy
    | infinity t => cases t <;> rfl
    | finite t n => rfl

theorem exists_compare? {x y : FloatValue} (hx : x ≠ nan) (hy : y ≠ nan) :
    ∃ o, x.compare? y = some o :=
  ⟨_, compare?_eq_order hx hy⟩

theorem compare?_eq_some_iff {x y : FloatValue} {o : Ordering} :
    x.compare? y = some o ↔ x ≠ nan ∧ y ≠ nan ∧ order x y = o := by
  constructor
  · intro h
    have hx : x ≠ nan := by rintro rfl; cases h
    have hy : y ≠ nan := by rintro rfl; cases x <;> cases h
    rw [compare?_eq_order hx hy, Option.some_inj] at h
    exact ⟨hx, hy, h⟩
  · rintro ⟨hx, hy, rfl⟩
    exact compare?_eq_order hx hy

/-- Exchanging two values turns their order round. -/
theorem compare?_swap (x y : FloatValue) : y.compare? x = (x.compare? y).map Ordering.swap := by
  refine Option.ext fun o => ?_
  rw [compare?_eq_some_iff, Option.map_eq_some_iff]
  simp only [compare?_eq_some_iff]
  have hswap : order y x = (order x y).swap := Std.OrientedCmp.eq_swap
  constructor
  · rintro ⟨hy, hx, rfl⟩
    exact ⟨_, ⟨hx, hy, rfl⟩, hswap.symm⟩
  · rintro ⟨_, ⟨hx, hy, rfl⟩, rfl⟩
    exact ⟨hy, hx, hswap⟩

end FloatValue

namespace FloatFormat

variable {f : FloatFormat}

/-! ### Bounds of rounding -/

theorem two_pow_excessBits_le {n : Nat} (h : n ≠ 0) : 2 ^ f.excessBits n ≤ n := by
  refine Nat.le_trans (Nat.pow_le_pow_right (by decide) ?_) (Nat.log2_self_le h)
  unfold excessBits
  omega

/-- Rounding does not fall below a power of two. -/
theorem two_pow_le_roundUnits {num den k : Nat} (h : 2 ^ k ≤ num / den) :
    2 ^ k ≤ f.roundUnits num den := by
  have hpos : num / den ≠ 0 := by
    have := Nat.two_pow_pos k
    omega
  unfold roundUnits
  dsimp only
  generalize hs : f.excessBits (num / den) = s
  have hle : 2 ^ s ≤ num / den := hs ▸ two_pow_excessBits_le hpos
  have hround : num / den / 2 ^ s ≤ roundHalfEven num (den * 2 ^ s) := by
    rw [Nat.div_div_eq_div_mul]
    rcases roundHalfEven_eq_or num (den * 2 ^ s) with hr | hr <;> omega
  refine Nat.le_trans ?_ (Nat.mul_le_mul_right _ hround)
  rcases Nat.le_total s k with hsk | hks
  · -- The excess bits are among the zeros of the power of two.
    have hquot : 2 ^ (k - s) ≤ num / den / 2 ^ s := by
      rw [Nat.le_div_iff_mul_le (Nat.two_pow_pos s), ← Nat.pow_add, Nat.sub_add_cancel hsk]
      exact h
    calc 2 ^ k = 2 ^ (k - s) * 2 ^ s := by rw [← Nat.pow_add, Nat.sub_add_cancel hsk]
      _ ≤ num / den / 2 ^ s * 2 ^ s := Nat.mul_le_mul_right _ hquot
  · have hone : 1 ≤ num / den / 2 ^ s :=
      (Nat.le_div_iff_mul_le (Nat.two_pow_pos s)).mpr (by omega)
    calc 2 ^ k ≤ 1 * 2 ^ s := by
          rw [Nat.one_mul]
          exact Nat.pow_le_pow_right (by decide) hks
      _ ≤ num / den / 2 ^ s * 2 ^ s := Nat.mul_le_mul_right _ hone

/-- Rounding at most doubles a number of units. -/
theorem roundUnits_le (n : Nat) (h : n ≠ 0) : f.roundUnits n 1 ≤ 2 * n := by
  unfold roundUnits
  dsimp only
  rw [Nat.div_one, Nat.one_mul]
  have hle := two_pow_excessBits_le (f := f) h
  generalize f.excessBits n = s at hle ⊢
  have hround : roundHalfEven n (2 ^ s) ≤ n / 2 ^ s + 1 := by
    rcases roundHalfEven_eq_or n (2 ^ s) with hr | hr <;> omega
  have hfloor : n / 2 ^ s * 2 ^ s ≤ n := Nat.div_mul_le_self n _
  calc roundHalfEven n (2 ^ s) * 2 ^ s ≤ (n / 2 ^ s + 1) * 2 ^ s := Nat.mul_le_mul_right _ hround
    _ ≤ 2 * n := by rw [Nat.add_mul]; omega

theorem round_ne_nan (negative : Bool) (num den : Nat) : f.round negative num den ≠ .nan := by
  unfold round
  dsimp only
  split <;> simp

theorem ofInt_ne_nan (v : Int) : f.ofInt v ≠ .nan := round_ne_nan _ _ _

/-- An integer well below the greatest finite value is finite. -/
theorem ofInt_eq_finite {v : Int} (h : 2 * (v.natAbs * 2 ^ f.unitPlaces) < f.infinityUnits) :
    f.ofInt v = .finite (v < 0) (f.roundUnits (v.natAbs * 2 ^ f.unitPlaces) 1) := by
  refine round_of_lt ?_
  by_cases hv : v.natAbs * 2 ^ f.unitPlaces = 0
  · rw [hv, ← Nat.zero_mul 1, roundUnits_of_held Nat.one_pos (held_of_lt (Nat.two_pow_pos _))]
    exact Nat.two_pow_pos _
  · exact Nat.lt_of_le_of_lt (roundUnits_le _ hv) h

/-! ### Powers of a number that is not below one -/

/-- The value is at least one, possibly infinite. -/
def AtLeastOne (f : FloatFormat) : FloatValue → Prop
  | .finite s n => s = false ∧ 2 ^ f.unitPlaces ≤ n
  | .infinity s => s = false
  | .nan => False

theorem atLeastOne_round {num den : Nat} (h : 2 ^ f.unitPlaces ≤ num / den) :
    f.AtLeastOne (f.round false num den) := by
  unfold round
  dsimp only
  split
  · exact ⟨rfl, two_pow_le_roundUnits h⟩
  · rfl

theorem atLeastOne_ofInt {v : Int} (h : 0 < v) : f.AtLeastOne (f.ofInt v) := by
  have hsign : decide (v < 0) = false := by
    rw [decide_eq_false_iff_not]
    omega
  rw [ofInt, hsign]
  refine atLeastOne_round ?_
  rw [Nat.div_one]
  exact Nat.le_mul_of_pos_left _ (by omega)

theorem AtLeastOne.mul {x y : FloatValue} (hx : f.AtLeastOne x) (hy : f.AtLeastOne y) :
    f.AtLeastOne (f.mul x y) := by
  have hpos := Nat.two_pow_pos f.unitPlaces
  cases x with
  | nan => exact hx.elim
  | infinity s =>
    cases y with
    | nan => exact hy.elim
    | infinity t => simp_all [FloatFormat.mul, AtLeastOne]
    | finite t n =>
      obtain ⟨ht, hn⟩ := hy
      have hs : s = false := hx
      have hne : n ≠ 0 := by omega
      simp [FloatFormat.mul, hne, hs, ht, AtLeastOne]
  | finite s m =>
    obtain ⟨hs, hm⟩ := hx
    have hne : m ≠ 0 := by omega
    cases y with
    | nan => exact hy.elim
    | infinity t =>
      have ht : t = false := hy
      simp [FloatFormat.mul, hne, hs, ht, AtLeastOne]
    | finite t n =>
      obtain ⟨ht, hn⟩ := hy
      rw [FloatFormat.mul, hs, ht]
      refine atLeastOne_round ?_
      rw [Nat.le_div_iff_mul_le hpos]
      exact Nat.mul_le_mul hm hn

theorem atLeastOne_powGo : ∀ (fuel : Nat) {r a : FloatValue} (n : Nat), f.AtLeastOne r →
    f.AtLeastOne a → f.AtLeastOne (pow.go f fuel r a n)
  | 0, _, _, _, hr, _ => hr
  | fuel + 1, r, a, n, hr, ha => by
    have hnext : f.AtLeastOne (if n % 2 = 1 then f.mul r a else r) := by
      split
      · exact hr.mul ha
      · exact hr
    rw [pow.go]
    split
    · exact hnext
    · exact atLeastOne_powGo fuel (n / 2) hnext (ha.mul ha)

theorem atLeastOne_pow {x : FloatValue} (hx : f.AtLeastOne x) (n : Nat) :
    f.AtLeastOne (f.pow x n) :=
  atLeastOne_powGo _ n ⟨rfl, Nat.le_refl _⟩ hx

theorem div_ne_nan {s : Bool} {m : Nat} {y : FloatValue} (hy : f.AtLeastOne y) :
    f.div (.finite s m) y ≠ .nan := by
  cases y with
  | nan => exact hy.elim
  | infinity t => simp [div]
  | finite t n =>
    have hn : n ≠ 0 := by
      have := hy.2
      have := Nat.two_pow_pos f.unitPlaces
      omega
    rw [div, if_neg hn]
    exact round_ne_nan _ _ _

end FloatFormat

namespace Decimal

/-- The unscaled integer of a decimal is within the range of the format. -/
theorem ofInt_unscaled (d : Decimal) : double.ofInt d.unscaled.val = .finite (d.unscaled.val < 0)
    (double.roundUnits (d.unscaled.val.natAbs * 2 ^ double.unitPlaces) 1) := by
  have hlo : -170141183460469231731687303715884105728 ≤ d.unscaled.val := d.unscaled.lo_le
  have hhi : d.unscaled.val ≤ 170141183460469231731687303715884105727 := d.unscaled.le_hi
  have habs : d.unscaled.val.natAbs ≤ 2 ^ 127 := by
    have hpow : 2 ^ 127 = 170141183460469231731687303715884105728 := by decide
    omega
  have hrange : 2 * (2 ^ 127 * 2 ^ double.unitPlaces) < double.infinityUnits := by
    decide +kernel
  exact FloatFormat.ofInt_eq_finite
    (Nat.lt_of_le_of_lt (Nat.mul_le_mul_left 2 (Nat.mul_le_mul_right _ habs)) hrange)

theorem atLeastOne_pow_ten (n : Nat) : double.AtLeastOne (double.pow (double.ofInt 10) n) :=
  FloatFormat.atLeastOne_pow (FloatFormat.atLeastOne_ofInt (by decide)) n

/-- **No decimal is NaN** in its 64-bit form, whatever its scale. -/
theorem toDouble_ne_nan (d : Decimal) : d.toDouble ≠ .nan := by
  rw [toDouble, ofInt_unscaled]
  exact FloatFormat.div_ne_nan (atLeastOne_pow_ten d.scale)

end Decimal

end TableQuery
