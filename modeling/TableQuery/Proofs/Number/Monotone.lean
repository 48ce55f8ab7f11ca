import Mathlib.Data.Int.Order.Basic
import Mathlib.Order.Compare
import Mathlib.Order.Lattice
import TableQuery.Proofs.Number.Ordered

/-! # Rounding keeps the order

A larger number is never rounded to a smaller one (`FloatFormat.roundUnits_mono`), so neither the
conversion of integers nor the division by one number turns two numbers round
(`FloatFormat.isLE_order_ofInt`, `FloatFormat.isLE_order_div`). It may make them equal. Numbers
whose ratio differs from one by more than the rounding of both stay different
(`FloatFormat.roundUnits_lt`). -/

namespace TableQuery

-- Powers are those of the core library, also where other instances are in scope.
attribute [local instance (2000)] instPowNat

/-! ### Rounding to a whole number -/

/-- The whole number below or the one above, by where twice the remainder stands. -/
theorem roundHalfEven_cases (num den : Nat) :
    roundHalfEven num den = num / den ∧
        (2 * (num % den) < den ∨ 2 * (num % den) = den ∧ num / den % 2 = 0) ∨
      roundHalfEven num den = num / den + 1 ∧
        (den < 2 * (num % den) ∨ 2 * (num % den) = den ∧ num / den % 2 = 1) := by
  unfold roundHalfEven
  dsimp only
  split
  · exact .inl ⟨rfl, .inl ‹_›⟩
  · split
    · exact .inr ⟨rfl, .inl ‹_›⟩
    · split <;> omega

theorem div_le_div_of_mul_le {m d n e : Nat} (hd : 0 < d) (he : 0 < e) (h : m * e ≤ n * d) :
    m / d ≤ n / e := by
  rw [Nat.le_div_iff_mul_le he]
  refine Nat.le_of_mul_le_mul_right ?_ hd
  calc m / d * e * d = m / d * d * e := Nat.mul_right_comm _ _ _
    _ ≤ m * e := Nat.mul_le_mul_right _ (Nat.div_mul_le_self m d)
    _ ≤ n * d := h

theorem roundHalfEven_mono {m d n e : Nat} (hd : 0 < d) (he : 0 < e) (h : m * e ≤ n * d) :
    roundHalfEven m d ≤ roundHalfEven n e := by
  have hm := Nat.div_add_mod m d
  have hn := Nat.div_add_mod n e
  rcases Nat.lt_or_eq_of_le (div_le_div_of_mul_le hd he h) with hlt | heq
  · rcases roundHalfEven_eq_or m d with hr | hr <;> rcases roundHalfEven_eq_or n e with hs | hs <;>
      omega
  · -- The quotients agree, so the remainders stand as the numbers do.
    have hrem : m % d * e ≤ n % e * d := by
      rw [← hm, ← hn, heq, Nat.add_mul, Nat.add_mul] at h
      have hcomm : d * (n / e) * e = e * (n / e) * d := by
        rw [Nat.mul_right_comm, Nat.mul_comm d e, Nat.mul_right_comm]
      omega
    have hle : d ≤ 2 * (m % d) → e ≤ 2 * (n % e) := by
      intro hhalf
      refine Nat.le_of_mul_le_mul_left ?_ hd
      calc d * e ≤ 2 * (m % d) * e := Nat.mul_le_mul_right _ hhalf
        _ = 2 * (m % d * e) := Nat.mul_assoc _ _ _
        _ ≤ 2 * (n % e * d) := Nat.mul_le_mul_left _ hrem
        _ = d * (2 * (n % e)) := by rw [← Nat.mul_assoc, Nat.mul_comm]
    have hlt : d < 2 * (m % d) → e < 2 * (n % e) := by
      intro hhalf
      refine Nat.lt_of_mul_lt_mul_left (a := d) ?_
      calc d * e < 2 * (m % d) * e := Nat.mul_lt_mul_of_pos_right hhalf he
        _ = 2 * (m % d * e) := Nat.mul_assoc _ _ _
        _ ≤ 2 * (n % e * d) := Nat.mul_le_mul_left _ hrem
        _ = d * (2 * (n % e)) := by rw [← Nat.mul_assoc, Nat.mul_comm]
    rcases roundHalfEven_cases m d with ⟨hr, hr'⟩ | ⟨hr, hr'⟩ <;>
      rcases roundHalfEven_cases n e with ⟨hs, hs'⟩ | ⟨hs, hs'⟩ <;> omega

/-- The rounded number is off by half of a whole number at most. -/
theorem two_mul_roundHalfEven_mul_le (num : Nat) {den : Nat} (hden : 0 < den) :
    2 * (roundHalfEven num den * den) ≤ 2 * num + den ∧
      2 * num ≤ 2 * (roundHalfEven num den * den) + den := by
  have hmod := Nat.div_add_mod num den
  have hlt := Nat.mod_lt num hden
  rw [Nat.mul_comm] at hmod
  rcases roundHalfEven_cases num den with ⟨hr, hr'⟩ | ⟨hr, hr'⟩
  · rw [hr]
    omega
  · rw [hr, Nat.add_mul, Nat.one_mul]
    omega

namespace FloatFormat

variable {f : FloatFormat}

/-! ### Rounding to a number of units -/

theorem excessBits_mono {m n : Nat} (h : m ≤ n) : f.excessBits m ≤ f.excessBits n := by
  unfold excessBits
  refine Nat.sub_le_sub_right ?_ _
  by_cases hm : m = 0
  · simp [hm]
  · exact (Nat.le_log2 (by omega)).mpr (Nat.le_trans (Nat.log2_self_le hm) h)

/-- The rounded number has one significand bit more at most, as a power of two. -/
theorem roundUnits_le_two_pow (num den : Nat) :
    f.roundUnits num den ≤ 2 ^ (f.fractionBits + 1 + f.excessBits (num / den)) := by
  have hquot := div_excessBits_lt (f := f) (num / den)
  rw [Nat.div_div_eq_div_mul] at hquot
  rw [roundUnits, Nat.pow_add]
  refine Nat.mul_le_mul_right _ ?_
  rcases roundHalfEven_eq_or num (den * 2 ^ f.excessBits (num / den)) with hr | hr <;> omega

/-- A number with excess bits fills the significand. -/
theorem two_pow_le_of_excessBits_pos {n : Nat} (h : 0 < f.excessBits n) :
    2 ^ (f.fractionBits + f.excessBits n) ≤ n := by
  have hn : n ≠ 0 := by
    rintro rfl
    simp [excessBits] at h
  have hlog : f.fractionBits + f.excessBits n = n.log2 := by
    unfold excessBits at h ⊢
    omega
  rw [hlog]
  exact Nat.log2_self_le hn

/-- **Rounding is monotone.** -/
theorem roundUnits_mono {m d n e : Nat} (hd : 0 < d) (he : 0 < e) (h : m * e ≤ n * d) :
    f.roundUnits m d ≤ f.roundUnits n e := by
  rcases Nat.lt_or_eq_of_le (excessBits_mono (f := f) (div_le_div_of_mul_le hd he h)) with hlt | heq
  · -- A power of two lies between the two rounded numbers.
    calc f.roundUnits m d ≤ 2 ^ (f.fractionBits + 1 + f.excessBits (m / d)) :=
          roundUnits_le_two_pow m d
      _ ≤ 2 ^ (f.fractionBits + f.excessBits (n / e)) :=
          Nat.pow_le_pow_right (by decide) (by omega)
      _ ≤ f.roundUnits n e := two_pow_le_roundUnits (two_pow_le_of_excessBits_pos (by omega))
  · rw [roundUnits, roundUnits, heq]
    have hpos := Nat.two_pow_pos (f.excessBits (n / e))
    refine Nat.mul_le_mul_right _
      (roundHalfEven_mono (Nat.mul_pos hd hpos) (Nat.mul_pos he hpos) ?_)
    rw [← Nat.mul_assoc, ← Nat.mul_assoc]
    exact Nat.mul_le_mul_right _ h

/-! ### The error of rounding -/

/-- From the second binade on, the rounded number is off by one half of the significand's last bit
at most. -/
theorem mul_roundUnits_le (num : Nat) {den : Nat} (hden : 0 < den)
    (h : 2 ^ f.fractionBits ≤ num / den) :
    2 ^ (f.fractionBits + 1) * (f.roundUnits num den * den) ≤
        (2 ^ (f.fractionBits + 1) + 1) * num ∧
      (2 ^ (f.fractionBits + 1) - 1) * num ≤
        2 ^ (f.fractionBits + 1) * (f.roundUnits num den * den) := by
  have hfill : 2 ^ (f.fractionBits + f.excessBits (num / den)) ≤ num / den := by
    rcases Nat.eq_zero_or_pos (f.excessBits (num / den)) with hzero | hpos
    · rwa [hzero]
    · exact two_pow_le_of_excessBits_pos hpos
  rw [Nat.le_div_iff_mul_le hden] at hfill
  rw [roundUnits]
  generalize f.excessBits (num / den) = s at hfill ⊢
  have herr := two_mul_roundHalfEven_mul_le num (Nat.mul_pos hden (Nat.two_pow_pos s))
  have hcomm : roundHalfEven num (den * 2 ^ s) * 2 ^ s * den =
      roundHalfEven num (den * 2 ^ s) * (den * 2 ^ s) := by
    rw [Nat.mul_assoc, Nat.mul_comm (2 ^ s)]
  rw [hcomm]
  generalize roundHalfEven num (den * 2 ^ s) * (den * 2 ^ s) = r at herr ⊢
  -- Half of the last bit is a small part of the number.
  have hlast : 2 ^ f.fractionBits * (den * 2 ^ s) ≤ num := by
    rwa [Nat.mul_comm den, ← Nat.mul_assoc, ← Nat.pow_add]
  have hlo := Nat.mul_le_mul_left (2 ^ f.fractionBits) herr.1
  have hhi := Nat.mul_le_mul_left (2 ^ f.fractionBits) herr.2
  rw [Nat.mul_add, Nat.mul_left_comm] at hlo hhi
  rw [Nat.mul_left_comm _ 2 r] at hhi
  rw [Nat.mul_left_comm _ 2 num] at hlo
  rw [Nat.pow_succ, Nat.mul_comm _ 2, Nat.add_mul, Nat.sub_mul, Nat.mul_assoc, Nat.mul_assoc]
  omega

/-- **Numbers far enough apart** are rounded to different ones. -/
theorem roundUnits_lt {m d n e : Nat} (hd : 0 < d) (he : 0 < e) (hm : 2 ^ f.fractionBits ≤ m / d)
    (hn : 2 ^ f.fractionBits ≤ n / e)
    (h : (2 ^ (f.fractionBits + 1) + 1) * (m * e) < (2 ^ (f.fractionBits + 1) - 1) * (n * d)) :
    f.roundUnits m d < f.roundUnits n e := by
  have hlo := Nat.mul_le_mul_right e (mul_roundUnits_le m hd hm).1
  have hhi := Nat.mul_le_mul_right d (mul_roundUnits_le n he hn).2
  refine Nat.lt_of_mul_lt_mul_right (a := 2 ^ (f.fractionBits + 1) * (d * e)) ?_
  calc f.roundUnits m d * (2 ^ (f.fractionBits + 1) * (d * e))
      = 2 ^ (f.fractionBits + 1) * (f.roundUnits m d * d) * e := by ac_rfl
    _ ≤ (2 ^ (f.fractionBits + 1) + 1) * m * e := hlo
    _ = (2 ^ (f.fractionBits + 1) + 1) * (m * e) := Nat.mul_assoc _ _ _
    _ < (2 ^ (f.fractionBits + 1) - 1) * (n * d) := h
    _ = (2 ^ (f.fractionBits + 1) - 1) * n * d := (Nat.mul_assoc _ _ _).symm
    _ ≤ 2 ^ (f.fractionBits + 1) * (f.roundUnits n e * e) * d := hhi
    _ = f.roundUnits n e * (2 ^ (f.fractionBits + 1) * (d * e)) := by ac_rfl

/-! ### The order of rounded values -/

end FloatFormat

theorem FloatValue.isLE_order_iff {x y : FloatValue} :
    (order x y).isLE ↔ tier x < tier y ∨ tier x = tier y ∧ units x ≤ units y := by
  rw [order, compareLex, Ordering.isLE_then_iff_or]
  simp [compareOn, Std.compare_eq_lt, Std.isLE_compare]

namespace FloatFormat

variable {f : FloatFormat}

theorem roundUnits_zero (den : Nat) : f.roundUnits 0 den = 0 := by
  rw [roundUnits, roundHalfEven]
  simp

theorem tier_round (s : Bool) (m d : Nat) : (f.round s m d).tier =
    if f.roundUnits m d < f.infinityUnits then 0 else if s then -1 else 1 := by
  rw [round]
  split <;> rfl

theorem units_round (s : Bool) (m d : Nat) : (f.round s m d).units =
    if f.roundUnits m d < f.infinityUnits then FloatValue.signedUnits s (f.roundUnits m d)
    else 0 := by
  rw [round]
  split <;> rfl

/-- **Fractions are rounded in their order.** -/
theorem isLE_order_round {s t : Bool} {m d n e : Nat} (hd : 0 < d) (he : 0 < e)
    (h : FloatValue.signedUnits s m * e ≤ FloatValue.signedUnits t n * d) :
    (FloatValue.order (f.round s m d) (f.round t n e)).isLE := by
  have hle : m * e ≤ n * d → f.roundUnits m d ≤ f.roundUnits n e := roundUnits_mono hd he
  have hge : n * d ≤ m * e → f.roundUnits n e ≤ f.roundUnits m d := roundUnits_mono he hd
  have hzero : m * e = 0 → f.roundUnits m d = 0 := fun hm => by
    rw [(Nat.mul_eq_zero.mp hm).resolve_right (by omega), roundUnits_zero]
  have hzero' : n * d = 0 → f.roundUnits n e = 0 := fun hn => by
    rw [(Nat.mul_eq_zero.mp hn).resolve_right (by omega), roundUnits_zero]
  have hpos : 0 < f.infinityUnits := Nat.two_pow_pos _
  rw [FloatValue.isLE_order_iff, tier_round, tier_round, units_round, units_round]
  generalize f.roundUnits m d = x at hle hge hzero ⊢
  generalize f.roundUnits n e = y at hle hge hzero' ⊢
  cases s <;> cases t <;>
    simp only [FloatValue.signedUnits, if_true, Bool.false_eq_true, if_false, Int.neg_mul]
      at h ⊢ <;>
    norm_cast at h <;> (repeat' split) <;> omega

/-- **Integers are converted in their order.** -/
theorem isLE_order_ofInt {v w : Int} (h : v ≤ w) :
    (FloatValue.order (f.ofInt v) (f.ofInt w)).isLE := by
  refine isLE_order_round Nat.one_pos Nat.one_pos ?_
  rw [FloatValue.signedUnits_mul, FloatValue.signedUnits_mul, FloatValue.signedUnits_natAbs,
    FloatValue.signedUnits_natAbs]
  exact Int.mul_le_mul_of_nonneg_right
    (Int.mul_le_mul_of_nonneg_right h (Int.natCast_nonneg _)) (Int.natCast_nonneg _)

/-- Values are divided by one number in their order, also by one that is infinite. -/
theorem isLE_order_div {s t : Bool} {m n : Nat} {z : FloatValue} (hz : f.AtLeastOne z)
    (h : (FloatValue.order (.finite s m) (.finite t n)).isLE) :
    (FloatValue.order (f.div (.finite s m) z) (f.div (.finite t n) z)).isLE := by
  have hunits : FloatValue.signedUnits s m ≤ FloatValue.signedUnits t n := by
    rw [FloatValue.isLE_order_iff] at h
    simpa [FloatValue.tier, FloatValue.units] using h
  cases z with
  | nan => exact hz.elim
  | infinity b =>
    rw [div, div, FloatValue.isLE_order_iff]
    simp [FloatValue.tier, FloatValue.units, FloatValue.signedUnits]
  | finite b k =>
    obtain ⟨rfl, hk⟩ := hz
    have hpos : 0 < k := Nat.lt_of_lt_of_le (Nat.two_pow_pos _) hk
    rw [div, div, if_neg (by omega), if_neg (by omega), Bool.bne_false, Bool.bne_false]
    refine isLE_order_round hpos hpos ?_
    rw [FloatValue.signedUnits_mul, FloatValue.signedUnits_mul]
    exact Int.mul_le_mul_of_nonneg_right
      (Int.mul_le_mul_of_nonneg_right hunits (Int.natCast_nonneg _)) (Int.natCast_nonneg _)

/-- The quotient of a finite integer is not above it if the divisor is not below one. -/
theorem div_ofInt_eq_finite {v : Int} {s : Bool} {m n : Nat} (hv : f.ofInt v = .finite s m)
    (hn : f.AtLeastOne (.finite false n)) :
    f.div (f.ofInt v) (.finite false n) =
      .finite s (f.roundUnits (m * 2 ^ f.unitPlaces) n) := by
  obtain ⟨-, hone⟩ := hn
  obtain ⟨hlt, hheld⟩ : f.Valid (.finite s m) := hv ▸ valid_ofInt v
  have hpos : 0 < n := Nat.lt_of_lt_of_le (Nat.two_pow_pos _) hone
  rw [hv, div, if_neg (Nat.ne_of_gt hpos), Bool.bne_false]
  refine round_of_lt (Nat.lt_of_le_of_lt ?_ hlt)
  conv => rhs; rw [← roundUnits_of_held Nat.one_pos hheld]
  refine roundUnits_mono hpos Nat.one_pos ?_
  rw [Nat.mul_one, Nat.mul_one]
  exact Nat.mul_le_mul_left _ hone

end FloatFormat

/-- An order that never turns round the elements of a linear order is that of the elements or makes
them equal. -/
theorem eq_compare_or_eq {α : Type} [LinearOrder α] {x y : α} {o : Ordering}
    (hle : x ≤ y → o.isLE) (hge : y ≤ x → o.swap.isLE) : o = compare x y ∨ o = .eq := by
  rcases lt_trichotomy x y with h | h | h
  · rw [compare_lt_iff_lt.mpr h]
    have := hle h.le
    cases o <;> simp_all
  · have := hle h.le
    have := hge h.ge
    cases o <;> simp_all
  · rw [compare_gt_iff_gt.mpr h]
    have := hge h.le
    cases o <;> simp_all

/-- Numbers that stand as others do compare as these. -/
theorem compare_congr {α β : Type} [LinearOrder α] [LinearOrder β] {x y : α} {v w : β}
    (hlt : x < y → v < w) (heq : x = y → v = w) (hgt : y < x → w < v) :
    compare v w = compare x y := by
  rcases lt_trichotomy x y with h | h | h
  · rw [compare_lt_iff_lt.mpr h, compare_lt_iff_lt.mpr (hlt h)]
  · rw [compare_eq_iff_eq.mpr h, compare_eq_iff_eq.mpr (heq h)]
  · rw [compare_gt_iff_gt.mpr h, compare_gt_iff_gt.mpr (hgt h)]

/-- **The order of two integers is never turned round**, only lost. -/
theorem FloatFormat.order_ofInt (f : FloatFormat) (v w : Int) :
    FloatValue.order (f.ofInt v) (f.ofInt w) = compare v w ∨
      FloatValue.order (f.ofInt v) (f.ofInt w) = .eq := by
  have hswap : FloatValue.order (f.ofInt w) (f.ofInt v) =
      (FloatValue.order (f.ofInt v) (f.ofInt w)).swap := Std.OrientedCmp.eq_swap
  refine eq_compare_or_eq (fun h => isLE_order_ofInt h) fun h => ?_
  rw [← hswap]
  exact isLE_order_ofInt h

end TableQuery
