import Mathlib.Data.Rat.Floor
import Mathlib.Tactic.FieldSimp
import TableQuery.Proofs.Arithmetic.Integers
import TableQuery.Proofs.Scalar.Exact

/-! # Arithmetic on decimals

A decimal and a decimal or integer are brought to the greater scale of the two, which loses
nothing, and the operation is done on their unscaled integers. So a result stands for the exact one,
`ArithOp.ofNumbers`, a product cut off at the scale. `Scalar.compute_decimal` says so, and that
there is a result unless an integer on the way has more than 128 bits. The operands are rescaled
before anything else: a remainder by zero is null only if its dividend can be rescaled
(`Scalar.not_compute_decimal`). -/

namespace TableQuery

-- Powers are those of the core library, also where other instances are in scope.
attribute [local instance (2000)] instPowNat

/-! ### Truncation -/

/-- The integer next to a number in the direction of zero. -/
def towardsZero (q : ℚ) : ℤ := if 0 ≤ q then ⌊q⌋ else ⌈q⌉

theorem towardsZero_neg (q : ℚ) : towardsZero (-q) = -towardsZero q := by
  rcases lt_trichotomy q 0 with hq | rfl | hq
  · rw [towardsZero, towardsZero, if_pos (by linarith), if_neg (by linarith), Int.floor_neg]
  · simp [towardsZero]
  · rw [towardsZero, towardsZero, if_neg (by linarith), if_pos hq.le, Int.ceil_neg]

theorem towardsZero_natCast_div (m n : ℕ) : towardsZero ((m : ℚ) / n) = (m : ℤ).tdiv n := by
  rw [towardsZero, if_pos (by positivity), Rat.floor_natCast_div_natCast]
  rfl

/-- Truncated division of integers is truncation of their quotient. -/
theorem towardsZero_div (x y : ℤ) : towardsZero ((x : ℚ) / y) = x.tdiv y := by
  obtain ⟨m, rfl | rfl⟩ := x.eq_nat_or_neg <;> obtain ⟨n, rfl | rfl⟩ := y.eq_nat_or_neg
  · rw [← towardsZero_natCast_div]
    rfl
  · rw [Int.tdiv_neg, ← towardsZero_natCast_div, ← towardsZero_neg]
    push_cast
    rw [div_neg]
  · rw [Int.neg_tdiv, ← towardsZero_natCast_div, ← towardsZero_neg]
    push_cast
    rw [neg_div]
  · rw [Int.neg_tdiv, Int.tdiv_neg, neg_neg, ← towardsZero_natCast_div]
    push_cast
    rw [neg_div_neg_eq]

/-! ### The exact result -/

namespace ArithOp

variable {op : ArithOp}

/-- **The exact result of an operation on numbers.** A product or quotient is cut off behind some
places, and a remainder is that of the quotient truncated to an integer. -/
def ofNumbers (places : ℕ) : ArithOp → ℚ → ℚ → ℚ
  | add, p, q => p + q
  | sub, p, q => p - q
  | mul, p, q => towardsZero (p * q * 10 ^ places) / 10 ^ places
  | div, p, q => towardsZero (p / q * 10 ^ places) / 10 ^ places
  | mod, p, q => p - q * towardsZero (p / q)

/-- An operation on the unscaled integers is the operation on the numbers. -/
theorem atScale_div_pow (hop : op ≠ .div) (scale : ℕ) (x y : ℤ) :
    (op.atScale scale x y : ℚ) / 10 ^ scale =
      op.ofNumbers scale (x / 10 ^ scale) (y / 10 ^ scale) := by
  have hpow : (10 : ℚ) ^ scale ≠ 0 := pow_ne_zero _ (by norm_num)
  cases op with
  | add | sub =>
    simp only [atScale, ofInts, ofNumbers]
    push_cast
    ring
  | mul =>
    have hproduct : (x : ℚ) / 10 ^ scale * (y / 10 ^ scale) * 10 ^ scale =
        ((x * y : ℤ) : ℚ) / ((10 ^ scale : ℤ) : ℚ) := by
      push_cast
      field_simp
    rw [ofNumbers, hproduct, towardsZero_div]
    rfl
  | div => exact absurd rfl hop
  | mod =>
    have hquotient : (x : ℚ) / 10 ^ scale / (y / 10 ^ scale) = x / y := by field_simp
    rw [ofNumbers, hquotient, towardsZero_div]
    simp only [atScale, ofInts, Int.tmod_def]
    push_cast
    ring

/-- If no integer on the way is longer than 128 bits, neither is the result. -/
theorem fits_atScale {scale : ℕ} {x y : ℤ} (hx : Int128.Fits x)
    (h : Int128.Fits (op.onTheWay x y)) : Int128.Fits (op.atScale scale x y) := by
  cases op with
  | add | sub | div => exact h
  | mul =>
    have hpow : (0 : ℤ) < 10 ^ scale := Int.pow_pos (by decide)
    exact h.of_between (tdiv_between _ hpow).1 (tdiv_between _ hpow).2
  | mod => exact hx.of_between (tmod_between x y).1 (tmod_between x y).2

end ArithOp

namespace Scalar

variable {op : ArithOp} {a b : Scalar}

/-! ### Rescaling -/

/-- The unscaled integer of an exact number at a scale that has room for its places. -/
def scaled (scale : ℕ) (v : Scalar) : ℤ := v.unscaled * 10 ^ (scale - v.places)

theorem number?_of_places_le {v : Scalar} {scale : ℕ} (hv : v.isExact = true)
    (hs : v.places ≤ scale) : v.number? = some ((v.scaled scale : ℚ) / 10 ^ scale) := by
  obtain ⟨d, -, hnumber, hunscaled, hplaces⟩ := exists_decimal hv
  have hpow : (10 : ℚ) ^ scale = 10 ^ (scale - v.places) * 10 ^ v.places := by
    rw [← pow_add, Nat.sub_add_cancel hs]
  rw [hnumber, Decimal.number, hunscaled, hplaces, scaled, hpow]
  push_cast
  field_simp

/-- Rescaling to a scale that has room for the places is a checked multiplication. -/
theorem unscaledAt_eq {v : Scalar} {scale : ℕ} (hv : v.isExact = true) (hs : v.places ≤ scale) :
    unscaledAt scale v = (Int128.ofInt? (v.scaled scale)).elim
      (.error (.eval (.tooLarge .decimal))) (fun b => .ok b.val) := by
  cases v with
  | int t n =>
    simp only [unscaledAt, asInt, int?, Result.pure_eq_ok, Result.ok_bind,
      if_pos (Nat.zero_le scale)]
    change _ = (Int128.ofInt? (n.val * 10 ^ scale)).elim _ _
    cases Int128.ofInt? (n.val * 10 ^ scale) <;> rfl
  | decimal d =>
    refine (if_pos hs).trans ?_
    change _ = (Int128.ofInt? (d.unscaled.val * 10 ^ (scale - d.scale))).elim _ _
    cases Int128.ofInt? (d.unscaled.val * 10 ^ (scale - d.scale)) <;> rfl
  | _ => cases hv

/-- An exact number is rescaled without loss if it fits. -/
theorem unscaledAt_decides {v : Scalar} {scale : ℕ} (hv : v.isExact = true)
    (hs : v.places ≤ scale) : (unscaledAt scale v).Decides (Int128.Fits (v.scaled scale))
      (fun x => x = v.scaled scale ∧ Int128.Fits x)
      (fun e => e = .eval (.tooLarge .decimal)) := by
  refine (Bounded.ofInt?_decides (f := Bounded.val)
    (fun b hb => by rw [unscaledAt_eq hv hs, Int128.ofInt?, hb, Option.elim_some])
    fun hnone => by rw [unscaledAt_eq hv hs, Int128.ofInt?, hnone, Option.elim_none]).mono ?_
  rintro _ ⟨b, rfl, hb⟩
  exact ⟨hb, b.lo_le, b.le_hi⟩

/-! ### Operations on decimals -/

/-- Decimals, and decimals beside integers, have a decimal type of the greater scale. -/
theorem resultType_decimal (hop : op ≠ .div) (ha : a.isExact = true) (hb : b.isExact = true)
    (hd : a.int? = none ∨ b.int? = none) : ∃ precision,
      op.resultType a.dataType b.dataType =
        .ok (.base (.decimal precision (max a.places b.places)) false) := by
  cases a with
  | int s x =>
    cases b with
    | int t y => rcases hd with hd | hd <;> cases hd
    | decimal e =>
      have hscale : max (int s x).places (decimal e).places = e.scale := Nat.zero_max _
      rw [hscale]
      exact ⟨_, ArithOp.resultType_of_supertype? hop rfl rfl rfl⟩
    | _ => cases hb
  | decimal d =>
    cases b with
    | int t y =>
      have hscale : max (decimal d).places (int t y).places = d.scale := Nat.max_zero _
      rw [hscale]
      exact ⟨_, ArithOp.resultType_of_supertype? hop rfl rfl rfl⟩
    | decimal e => exact ⟨_, ArithOp.resultType_of_supertype? hop rfl rfl rfl⟩
    | _ => cases hb
  | _ => cases ha

/-- Arithmetic at a decimal type rescales its operands first. -/
theorem arith_decimal (ha : a.isExact = true) (hb : b.isExact = true) (precision scale : ℕ)
    (n : Bool) : arith op a b (.base (.decimal precision scale) n) = (do
      let x ← unscaledAt scale a
      let y ← unscaledAt scale b
      match exactOp op scale x y with
      | .value v => ofUnscaled op a b scale v
      | .divisionByZero => return null
      | .overflow => .error (.eval (.overflow op a b))) := by
  cases a with
  | int | decimal =>
    cases b with
    | int | decimal => rfl
    | _ => cases hb
  | _ => cases ha

/-- The result on unscaled integers, as a decimal. -/
theorem exactOp_decides (hop : op ≠ .div) (scale : ℕ) {x y : ℤ} (hmod : op = .mod → y ≠ 0)
    (hx : Int128.Fits x) : Result.Decides (match exactOp op scale x y with
      | .value v => ofUnscaled op a b scale v
      | .divisionByZero => pure null
      | .overflow => .error (.eval (.overflow op a b))) (Int128.Fits (op.onTheWay x y))
      (fun v => ∃ d : Decimal, v = decimal d ∧ d.scale = scale ∧
        d.number = op.ofNumbers scale (x / 10 ^ scale) (y / 10 ^ scale))
      (fun e => e = .eval (.overflow op a b)) := by
  rw [exactOp_eq hop hmod]
  by_cases h : Int128.Fits (op.onTheWay x y)
  · rw [if_pos h]
    have hfits : Int128.Fits (op.atScale scale x y) := ArithOp.fits_atScale hx h
    refine .of_ok (a := decimal ⟨⟨op.atScale scale x y, hfits.1, hfits.2⟩, scale⟩) ?_
      ⟨_, rfl, rfl, ?_⟩ h
    · simp only [ofUnscaled, Int128.ofInt?, Bounded.ofInt?_of_within hfits]
    · exact ArithOp.atScale_div_pow hop scale x y
  · rw [if_neg h]
    exact .of_error rfl rfl h

/-- **Arithmetic on decimals is exact.** A sum, difference, product or remainder of a decimal and a
decimal or integer has a decimal type. At its scale the operands are the integers `x` and `y`. There
is a result if these, and the sum, difference, product or quotient of the two, have 128 bits at
most, and it stands for the exact one; the remainder by zero is null if the dividend has 128 bits.
In all other cases there is an error. -/
theorem compute_decimal (hop : op ≠ .div) (ha : a.isExact = true) (hb : b.isExact = true)
    (hd : a.int? = none ∨ b.int? = none) : ∃ (p q : ℚ) (precision scale : ℕ) (x y : ℤ),
      a.number? = some p ∧ b.number? = some q ∧
      op.resultType a.dataType b.dataType = .ok (.base (.decimal precision scale) false) ∧
      (x : ℚ) = p * 10 ^ scale ∧ (y : ℚ) = q * 10 ^ scale ∧
      ((op = .mod ∧ q = 0) → (compute op a b).Decides (Int128.Fits x) (fun v => v = null)
        (fun e => e = .eval (.tooLarge .decimal))) ∧
      (¬(op = .mod ∧ q = 0) → (compute op a b).Decides
        (Int128.Fits x ∧ Int128.Fits y ∧ Int128.Fits (op.onTheWay x y))
        (fun v =>
          ∃ d : Decimal, v = decimal d ∧ d.scale = scale ∧ d.number = op.ofNumbers scale p q)
        (fun e => e = .eval (.tooLarge .decimal) ∨ e = .eval (.overflow op a b))) := by
  obtain ⟨precision, htype⟩ := resultType_decimal hop ha hb hd
  have hplaces := le_max_left a.places b.places
  have hplaces' := le_max_right a.places b.places
  generalize max a.places b.places = scale at *
  have hpow : (10 : ℚ) ^ scale ≠ 0 := pow_ne_zero _ (by norm_num)
  have hx := unscaledAt_decides ha hplaces
  have hy := unscaledAt_decides hb hplaces'
  have hcompute := (compute_of_resultType htype).trans (arith_decimal ha hb precision scale false)
  refine ⟨_, _, precision, scale, a.scaled scale, b.scaled scale, number?_of_places_le ha hplaces,
    number?_of_places_le hb hplaces', htype, ?_, ?_, ?_, ?_⟩
  · rw [div_mul_cancel₀ _ hpow]
  · rw [div_mul_cancel₀ _ hpow]
  · rintro ⟨rfl, hzero⟩
    have hy0 : b.scaled scale = 0 := by simpa [hpow] using hzero
    obtain ⟨y, hyok, rfl, -⟩ := hy.ok (by rw [hy0]; decide)
    rw [hcompute]
    exact hx.bind_ok fun x _ => ⟨null, by rw [hyok, Result.ok_bind, hy0]; rfl, rfl⟩
  · intro hmod
    have hy0 : op = .mod → b.scaled scale ≠ 0 := by
      intro hm h0
      exact hmod ⟨hm, by rw [h0, Int.cast_zero, zero_div]⟩
    rw [hcompute]
    refine (hx.mono_error fun e he => .inl he).bind ?_
    rintro x ⟨rfl, hfits⟩
    refine (hy.mono_error fun e he => .inl he).bind ?_
    rintro y ⟨rfl, -⟩
    exact (exactOp_decides hop scale hy0 hfits).mono_error fun e he => .inr he

/-- The product `-1.085` of `-1.55` and `0.7` is cut off to `-1.08`. -/
theorem compute_decimal_product : ∃ d : Decimal,
    compute .mul (decimal ⟨⟨-155, by decide, by decide⟩, 2⟩)
        (decimal ⟨⟨7, by decide, by decide⟩, 1⟩) = .ok (decimal d) ∧
      d.scale = 2 ∧ d.number = -108 / 100 := by
  obtain ⟨p, q, precision, scale, x, y, hp, hq, htype, hx, hy, -, hexact⟩ :=
    compute_decimal (show ArithOp.mul ≠ .div by decide)
      (a := decimal ⟨⟨-155, by decide, by decide⟩, 2⟩)
      (b := decimal ⟨⟨7, by decide, by decide⟩, 1⟩) rfl rfl (.inl rfl)
  obtain rfl := Option.some.inj hp
  obtain rfl := Option.some.inj hq
  cases htype
  obtain rfl : x = -155 := Int.cast_injective (hx.trans (by norm_num))
  obtain rfl : y = 70 := Int.cast_injective (hy.trans (by norm_num))
  obtain ⟨v, hv, d, rfl, hscale, hnumber⟩ :=
    (hexact (by simp)).ok ⟨by decide, by decide, by decide⟩
  refine ⟨d, hv, hscale, hnumber.trans ?_⟩
  have hproduct : ((-155 : ℤ) : ℚ) / 10 ^ 2 * ((7 : ℤ) / 10 ^ 1) * 10 ^ 2 =
      ((-217 : ℤ) : ℚ) / ((2 : ℤ) : ℚ) := by norm_num
  have htruncated : (-217 : ℤ).tdiv 2 = -108 := rfl
  change (towardsZero (((-155 : ℤ) : ℚ) / 10 ^ 2 * ((7 : ℤ) / 10 ^ 1) * 10 ^ 2) : ℚ) / 10 ^ 2 =
    -108 / 100
  rw [hproduct, towardsZero_div, htruncated]
  norm_num

/-- **A remainder by zero may be an error.** Beside a zero of 38 places the dividend `10` is
rescaled to more than 128 bits, before the divisor is looked at. -/
theorem not_compute_decimal :
    ¬ ∀ a b : Scalar, a.isExact = true → b.isExact = true → (a.int? = none ∨ b.int? = none) →
      a.places ≤ 38 → b.places ≤ 38 → b.number? = some 0 → compute .mod a b = .ok null := by
  intro h
  have hnull := h (decimal ⟨⟨10, by decide, by decide⟩, 0⟩)
    (decimal ⟨⟨0, by decide, by decide⟩, 38⟩) rfl rfl (.inl rfl) (by decide) (by decide)
    (by simp [number?])
  have herror : compute .mod (decimal ⟨⟨10, by decide, by decide⟩, 0⟩)
      (decimal ⟨⟨0, by decide, by decide⟩, 38⟩) = .error (.eval (.tooLarge .decimal)) := rfl
  rw [herror] at hnull
  cases hnull

end Scalar

end TableQuery
