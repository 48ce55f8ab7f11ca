import TableQuery.Number.FloatFormat

/-! # Rounding and encoding of binary formats

A number of units is *held* by a format when its excess bits are zero, and a value is *valid* when
it is one the format has. Rounding gives valid values (`valid_round`) and leaves a number that is
held as it is (`round_of_held`), so the conversion to a format with more bits is exact. Patterns
decode to valid values (`valid_decode`), and a valid value is read back from its pattern
(`decode_encode`), so no two of them share one (`encode_inj`). -/

namespace TableQuery

-- Powers are those of the core library, also where other instances are in scope.
attribute [local instance (2000)] instPowNat

/-! ### Signed numbers of units -/

namespace FloatValue

theorem natAbs_signedUnits (s : Bool) (n : Nat) : (signedUnits s n).natAbs = n := by
  cases s <;> simp [signedUnits]

theorem signedUnits_natAbs (v : Int) : signedUnits (v < 0) v.natAbs = v := by
  unfold signedUnits
  split
  · rename_i h
    rw [decide_eq_true_eq] at h
    omega
  · rename_i h
    rw [decide_eq_true_eq] at h
    omega

theorem signedUnits_mul (s : Bool) (n k : Nat) :
    signedUnits s (n * k) = signedUnits s n * (k : Int) := by
  have hmul : ((n * k : Nat) : Int) = n * k := Int.natCast_mul n k
  cases s with
  | false => exact hmul
  | true => exact (congrArg Neg.neg hmul).trans (Int.neg_mul _ _).symm

/-- Only the two zeros have one number of units in common. -/
theorem signedUnits_inj {s t : Bool} {m n : Nat} :
    signedUnits s m = signedUnits t n ↔ m = n ∧ (s = t ∨ m = 0) := by
  cases s <;> cases t <;> simp [signedUnits] <;> omega

end FloatValue

/-! ### Rounding to a whole number -/

theorem roundHalfEven_mul (q : Nat) {d : Nat} (hd : 0 < d) : roundHalfEven (q * d) d = q := by
  simp [roundHalfEven, Nat.mul_div_cancel _ hd, hd]

theorem roundHalfEven_eq_or (num den : Nat) :
    roundHalfEven num den = num / den ∨ roundHalfEven num den = num / den + 1 := by
  unfold roundHalfEven
  dsimp only
  split
  · exact .inl rfl
  · split
    · exact .inr rfl
    · split
      · exact .inl rfl
      · exact .inr rfl

namespace FloatFormat

variable {f : FloatFormat}

/-! ### Numbers that the significand can hold -/

/-- The significand can hold the number of units. -/
def Held (f : FloatFormat) (n : Nat) : Prop := 2 ^ f.excessBits n ∣ n

theorem excessBits_le {n s : Nat} (h : n < 2 ^ (f.fractionBits + 1 + s)) : f.excessBits n ≤ s := by
  unfold excessBits
  by_cases hn : n = 0
  · simp [hn]
  · have := (Nat.log2_lt hn).mpr h
    omega

/-- A significand of the format's bits is held at every scale. -/
theorem held_mul {m : Nat} (s : Nat) (h : m < 2 ^ (f.fractionBits + 1)) : f.Held (m * 2 ^ s) := by
  have hs : f.excessBits (m * 2 ^ s) ≤ s := excessBits_le (by
    rw [Nat.pow_add]
    exact Nat.mul_lt_mul_of_pos_right h (Nat.two_pow_pos s))
  exact Nat.dvd_trans (Nat.pow_dvd_pow 2 hs) (Nat.dvd_mul_left _ _)

theorem held_of_lt {n : Nat} (h : n < 2 ^ (f.fractionBits + 1)) : f.Held n := by
  simpa using held_mul 0 h

/-- The next power of two is held, too, though its significand has one bit more. -/
theorem held_mul_of_le {m : Nat} (s : Nat) (h : m ≤ 2 ^ (f.fractionBits + 1)) :
    f.Held (m * 2 ^ s) := by
  rcases Nat.lt_or_eq_of_le h with hlt | rfl
  · exact held_mul s hlt
  · rw [← Nat.pow_add, ← Nat.one_mul (2 ^ _)]
    exact held_mul _ (Nat.one_lt_two_pow (by omega))

/-- The bits of a number that are not in excess. -/
theorem div_excessBits_lt (n : Nat) : n / 2 ^ f.excessBits n < 2 ^ (f.fractionBits + 1) := by
  rw [Nat.div_lt_iff_lt_mul (Nat.two_pow_pos _), ← Nat.pow_add]
  refine Nat.lt_of_lt_of_le Nat.lt_log2_self (Nat.pow_le_pow_right (by decide) ?_)
  unfold excessBits
  omega

/-- What is held is held at every larger scale. -/
theorem Held.mul_two_pow {n : Nat} (h : f.Held n) (s : Nat) : f.Held (n * 2 ^ s) := by
  rw [← Nat.div_mul_cancel h, Nat.mul_assoc, ← Nat.pow_add]
  exact held_mul _ (div_excessBits_lt n)

/-- From the second binade on, the significand has its leading bit. -/
theorem le_div_excessBits {n : Nat} (h : 2 ^ f.fractionBits ≤ n) :
    2 ^ f.fractionBits ≤ n / 2 ^ f.excessBits n := by
  have hn : n ≠ 0 := by
    have := Nat.two_pow_pos f.fractionBits
    omega
  have hlog : f.fractionBits ≤ n.log2 := (Nat.le_log2 hn).mpr h
  rw [Nat.le_div_iff_mul_le (Nat.two_pow_pos _), ← Nat.pow_add]
  have hsum : f.fractionBits + f.excessBits n = n.log2 := by
    unfold excessBits
    omega
  rw [hsum]
  exact Nat.log2_self_le hn

theorem excessBits_eq_zero {n : Nat} (h : n < 2 ^ (f.fractionBits + 1)) : f.excessBits n = 0 :=
  Nat.le_zero.mp (excessBits_le h)

/-! ### Rounding to a number of units -/

theorem held_roundUnits (num den : Nat) : f.Held (f.roundUnits num den) := by
  have hq := div_excessBits_lt (f := f) (num / den)
  rw [Nat.div_div_eq_div_mul] at hq
  have hr := roundHalfEven_eq_or num (den * 2 ^ f.excessBits (num / den))
  exact held_mul_of_le _ (by omega)

/-- A number that is held is its own rounding. -/
theorem roundUnits_of_held {n den : Nat} (hden : 0 < den) (h : f.Held n) :
    f.roundUnits (n * den) den = n := by
  obtain ⟨k, hk⟩ := h
  unfold roundUnits
  rw [Nat.mul_div_cancel _ hden]
  have hnum : n * den = k * (den * 2 ^ f.excessBits n) := by
    conv => lhs; rw [hk]
    rw [Nat.mul_comm (2 ^ _) k, Nat.mul_assoc, Nat.mul_comm (2 ^ _) den]
  dsimp only
  rw [hnum, roundHalfEven_mul k (Nat.mul_pos hden (Nat.two_pow_pos _)), Nat.mul_comm, ← hk]

/-! ### Valid values -/

/-- **The values of the format**: of the finite ones, those whose units are in range and held. -/
def Valid (f : FloatFormat) : FloatValue → Prop
  | .finite _ n => n < f.infinityUnits ∧ f.Held n
  | _ => True

theorem round_of_lt {negative : Bool} {num den : Nat}
    (h : f.roundUnits num den < f.infinityUnits) :
    f.round negative num den = .finite negative (f.roundUnits num den) := by
  unfold round
  exact if_pos h

/-- Every rounded value is one of the format. -/
theorem valid_round (negative : Bool) (num den : Nat) : f.Valid (f.round negative num den) := by
  unfold round
  dsimp only
  split
  · exact ⟨by assumption, held_roundUnits num den⟩
  · trivial

theorem valid_ofInt (v : Int) : f.Valid (f.ofInt v) := valid_round _ _ _

/-- A number of units in range that is held is rounded to itself. -/
theorem round_of_held {negative : Bool} {n den : Nat} (hden : 0 < den)
    (hlt : n < f.infinityUnits) (h : f.Held n) :
    f.round negative (n * den) den = .finite negative n := by
  have hround := roundUnits_of_held hden h
  rw [round_of_lt (by rwa [hround]), hround]

/-- Division by one does not round. -/
theorem div_one {x : FloatValue} (hx : f.Valid x) : f.div x f.one = x := by
  cases x with
  | nan => rfl
  | infinity s => simp [div, one]
  | finite s n =>
    obtain ⟨hlt, hheld⟩ := hx
    have hpos := Nat.two_pow_pos f.unitPlaces
    rw [one, div, if_neg (Nat.ne_of_gt hpos), Bool.bne_false]
    exact round_of_held hpos hlt hheld

theorem pow_zero (x : FloatValue) : f.pow x 0 = f.one := by
  rw [pow, pow.go]
  simp

/-- A value of a format with no more bits is converted exactly: its units are only finer ones. -/
theorem convert_of_valid {g : FloatFormat} (hfrac : g.fractionBits ≤ f.fractionBits)
    (hplaces : g.unitPlaces ≤ f.unitPlaces)
    (hrange : g.fractionBits + g.topExponent - 1 + (f.unitPlaces - g.unitPlaces) ≤
      f.fractionBits + f.topExponent - 1) {s : Bool} {n : Nat} (hn : g.Valid (.finite s n)) :
    f.convert g (.finite s n) = .finite s (n * 2 ^ (f.unitPlaces - g.unitPlaces)) := by
  obtain ⟨hlt, hheld⟩ := hn
  have hnum : n * 2 ^ f.unitPlaces =
      n * 2 ^ (f.unitPlaces - g.unitPlaces) * 2 ^ g.unitPlaces := by
    rw [Nat.mul_assoc, ← Nat.pow_add, Nat.sub_add_cancel hplaces]
  rw [convert, hnum]
  refine round_of_held (Nat.two_pow_pos _) ?_ ?_
  · refine Nat.lt_of_lt_of_le (Nat.mul_lt_mul_of_pos_right hlt (Nat.two_pow_pos _)) ?_
    unfold infinityUnits
    rw [← Nat.pow_add]
    exact Nat.pow_le_pow_right (by decide) hrange
  · rw [← Nat.div_mul_cancel hheld, Nat.mul_assoc, ← Nat.pow_add]
    refine held_mul _ (Nat.lt_of_lt_of_le (div_excessBits_lt n) ?_)
    exact Nat.pow_le_pow_right (by decide) (by omega)

/-- An integer in range that the significand can hold is converted exactly. -/
theorem ofInt_of_held {v : Int} (hlt : v.natAbs * 2 ^ f.unitPlaces < f.infinityUnits)
    (h : f.Held v.natAbs) : f.ofInt v = .finite (v < 0) (v.natAbs * 2 ^ f.unitPlaces) := by
  have hround := @round_of_held f (v < 0) _ 1 Nat.one_pos hlt (h.mul_two_pow _)
  rwa [Nat.mul_one] at hround

theorem valid_convert (g : FloatFormat) (x : FloatValue) : f.Valid (f.convert g x) := by
  cases x with
  | finite s n => exact valid_round _ _ _
  | _ => trivial

/-! ### Bit patterns -/

theorem decodeUnits_encodeUnits {n : Nat} (h : f.Held n) : f.decodeUnits (f.encodeUnits n) = n := by
  have hpos := Nat.two_pow_pos f.fractionBits
  unfold encodeUnits decodeUnits
  dsimp only
  by_cases hn : n < 2 ^ f.fractionBits
  · rw [excessBits_eq_zero (Nat.lt_trans hn (Nat.pow_lt_pow_succ (by decide)))]
    simp [Nat.div_eq_of_lt hn, Nat.mod_eq_of_lt hn]
  · have hlo := le_div_excessBits (Nat.le_of_not_lt hn)
    have hhi := div_excessBits_lt (f := f) n
    rw [Nat.pow_succ] at hhi
    obtain ⟨m, hm⟩ := Nat.exists_eq_add_of_le hlo
    have hmlt : m < 2 ^ f.fractionBits := by omega
    -- The leading bit of the significand adds one to the exponent field.
    have hb : f.excessBits n * 2 ^ f.fractionBits + n / 2 ^ f.excessBits n =
        m + (f.excessBits n + 1) * 2 ^ f.fractionBits := by
      rw [hm, Nat.succ_mul]
      omega
    rw [hb, Nat.add_mul_div_right _ _ hpos, Nat.add_mul_mod_self_right, Nat.div_eq_of_lt hmlt,
      Nat.mod_eq_of_lt hmlt, if_neg (by omega), ← hm, Nat.zero_add, Nat.add_sub_cancel]
    exact Nat.div_mul_cancel h

/-- The fields of a finite magnitude stay below those of an infinity. -/
theorem encodeUnits_lt (he : 2 ≤ f.exponentBits) {n : Nat} (hn : n < f.infinityUnits) :
    f.encodeUnits n < f.topExponent * 2 ^ f.fractionBits := by
  have htop : 4 ≤ 2 ^ f.exponentBits := Nat.pow_le_pow_right (n := 2) (by decide) he
  have hexc : f.excessBits n ≤ f.topExponent - 2 := excessBits_le (by
    refine Nat.lt_of_lt_of_le hn (Nat.pow_le_pow_right (by decide) ?_)
    unfold topExponent
    omega)
  have hdiv := div_excessBits_lt (f := f) n
  have hle : (f.excessBits n + 2) * 2 ^ f.fractionBits ≤ f.topExponent * 2 ^ f.fractionBits := by
    refine Nat.mul_le_mul_right _ ?_
    unfold topExponent at hexc ⊢
    omega
  rw [Nat.add_mul] at hle
  rw [Nat.pow_succ] at hdiv
  unfold encodeUnits
  dsimp only
  omega

/-- The sign bit counts the fields below it once more. -/
theorem two_pow_width_pred : 2 ^ (f.width - 1) =
    f.topExponent * 2 ^ f.fractionBits + 2 ^ f.fractionBits := by
  have hpos := Nat.two_pow_pos f.exponentBits
  rw [← Nat.succ_mul, show f.topExponent.succ = 2 ^ f.exponentBits by unfold topExponent; omega,
    ← Nat.pow_add]
  congr 1
  unfold width
  omega

theorem toNat_sign {s : Bool} {b : Nat} (hb : b < 2 ^ (f.width - 1)) :
    (encode.sign f s b).toNat = (if s then 2 ^ (f.width - 1) else 0) + b := by
  have hw : 2 ^ f.width = 2 * 2 ^ (f.width - 1) := by
    rw [← Nat.pow_succ']
    congr 1
    unfold width
    omega
  rw [encode.sign, BitVec.toNat_ofNat, Nat.mod_eq_of_lt]
  split <;> omega

/-- Decoding takes the sign apart from the fields below it. -/
theorem decode_sign {s : Bool} {b : Nat} (hb : b < 2 ^ (f.width - 1)) :
    f.decode (encode.sign f s b) =
      if b < f.topExponent * 2 ^ f.fractionBits then .finite s (f.decodeUnits b)
      else if b = f.topExponent * 2 ^ f.fractionBits then .infinity s else .nan := by
  have hneg : decide (((if s then 2 ^ (f.width - 1) else 0) + b) / 2 ^ (f.width - 1) = 1) = s := by
    cases s
    · simp [Nat.div_eq_of_lt hb]
    · simp [Nat.add_div_left b (Nat.two_pow_pos (f.width - 1)), Nat.div_eq_of_lt hb]
  have hmag : ((if s then 2 ^ (f.width - 1) else 0) + b) % 2 ^ (f.width - 1) = b := by
    cases s <;> simp [Nat.mod_eq_of_lt hb]
  unfold decode
  simp only [toNat_sign hb, hneg, hmag]

/-- **A valid value is read back from its pattern.** -/
theorem decode_encode (he : 2 ≤ f.exponentBits) (hf : 0 < f.fractionBits) {x : FloatValue}
    (hx : f.Valid x) : f.decode (f.encode x) = x := by
  have hpos := Nat.two_pow_pos f.fractionBits
  have hw := two_pow_width_pred (f := f)
  cases x with
  | nan =>
    have hhalf : 2 ^ (f.fractionBits - 1) < 2 ^ f.fractionBits :=
      Nat.pow_lt_pow_right (by decide) (by omega)
    have hpos' := Nat.two_pow_pos (f.fractionBits - 1)
    have h := decode_sign (f := f) (s := false)
      (b := f.topExponent * 2 ^ f.fractionBits + 2 ^ (f.fractionBits - 1)) (by omega)
    rw [if_neg (by omega), if_neg (by omega)] at h
    simpa [encode, encode.sign] using h
  | infinity s =>
    rw [encode, decode_sign (by omega), if_neg (Nat.lt_irrefl _), if_pos rfl]
  | finite s n =>
    have hb := encodeUnits_lt he hx.1
    rw [encode, decode_sign (by omega), if_pos hb, decodeUnits_encodeUnits hx.2]

/-- Distinct values have distinct patterns. -/
theorem encode_inj (he : 2 ≤ f.exponentBits) (hf : 0 < f.fractionBits) {x y : FloatValue}
    (hx : f.Valid x) (hy : f.Valid y) : f.encode x = f.encode y ↔ x = y := by
  refine ⟨fun h => ?_, fun h => h ▸ rfl⟩
  rw [← decode_encode he hf hx, h, decode_encode he hf hy]

theorem decodeUnits_lt {b : Nat} (hb : b < f.topExponent * 2 ^ f.fractionBits) :
    f.decodeUnits b < f.infinityUnits := by
  have hpos := Nat.two_pow_pos f.fractionBits
  have he : b / 2 ^ f.fractionBits < f.topExponent := Nat.div_lt_of_lt_mul (by rwa [Nat.mul_comm])
  have htop : 0 < f.topExponent := Nat.zero_lt_of_lt he
  have hm := Nat.mod_lt b hpos
  unfold decodeUnits infinityUnits
  dsimp only
  generalize b / 2 ^ f.fractionBits = e at he ⊢
  split
  · exact Nat.lt_of_lt_of_le hm (Nat.pow_le_pow_right (by decide) (by omega))
  · have hsig : 2 ^ f.fractionBits + b % 2 ^ f.fractionBits < 2 ^ (f.fractionBits + 1) := by
      rw [Nat.pow_succ]
      omega
    refine Nat.lt_of_lt_of_le (Nat.mul_lt_mul_of_pos_right hsig (Nat.two_pow_pos _)) ?_
    rw [← Nat.pow_add]
    exact Nat.pow_le_pow_right (by decide) (by omega)

theorem held_decodeUnits (b : Nat) : f.Held (f.decodeUnits b) := by
  have hm := Nat.mod_lt b (Nat.two_pow_pos f.fractionBits)
  unfold decodeUnits
  dsimp only
  split
  · exact held_of_lt (Nat.lt_trans hm (Nat.pow_lt_pow_succ (by decide)))
  · refine held_mul _ ?_
    rw [Nat.pow_succ]
    omega

/-- **Every pattern stands for a valid value.** -/
theorem valid_decode (bits : BitVec f.width) : f.Valid (f.decode bits) := by
  unfold decode
  dsimp only
  split
  · rename_i hb
    exact ⟨decodeUnits_lt hb, held_decodeUnits _⟩
  · split <;> trivial

end FloatFormat

/-! ### The 64-bit form -/

namespace FloatType

variable {t : FloatType} {v : t.Value}

theorem valid_toDouble (v : t.Value) : double.Valid (t.toDouble v) := by
  cases t with
  | float64 => exact FloatFormat.valid_decode v
  | float32 => exact FloatFormat.valid_convert FloatType.float32.format (decode _ v)
  | float16 => exact FloatFormat.valid_convert FloatType.float16.format (decode _ v)

theorem toDouble_of_nan (h : t.decode v = .nan) : t.toDouble v = .nan := by
  cases t with
  | float64 => exact h
  | float32 | float16 =>
    rw [toDouble, h, FloatFormat.convert]
    simp

theorem toDouble_of_infinity {s : Bool} (h : t.decode v = .infinity s) :
    t.toDouble v = .infinity s := by
  cases t with
  | float64 => exact h
  | float32 | float16 =>
    rw [toDouble, h, FloatFormat.convert]
    simp

/-- **The 64-bit form is exact**: it has the same number of units, taken as finer ones. -/
theorem toDouble_of_finite {s : Bool} {n : Nat} (h : t.decode v = .finite s n) :
    t.toDouble v = .finite s (n * 2 ^ (double.unitPlaces - t.format.unitPlaces)) := by
  have hvalid : t.format.Valid (.finite s n) := h ▸ FloatFormat.valid_decode v
  cases t with
  | float64 =>
    rw [Nat.sub_self, Nat.pow_zero, Nat.mul_one]
    exact h
  | float32 | float16 =>
    rw [toDouble, h, FloatFormat.convert_of_valid (by decide) (by decide) (by decide) hvalid]
    simp

end FloatType

end TableQuery
