import TableQuery.Proofs.Scalar.Exact

/-! # Equality under rounding

Numbers of which not both are integers are compared by their 64-bit forms, but their keys are made
of the numbers themselves. `Scalar.RoundingSafe` lists ranges of numbers in which the one equality
is the other: numbers that are apart, equal digits, short numbers, and whole numbers beside floats
(`RoundingSafe.sameNumber_iff`). Outside of these, rounding may make one 64-bit form of two numbers
or two of one, and a number with a fraction has another key as a decimal than as a float.

The main statement is `Scalar.compare?_eq_iff`: two values whose numbers, place by place, are in
these ranges compare as equal exactly if they have one key and comparison orders them. -/

namespace TableQuery

-- Powers are those of the core library, also where other instances are in scope.
attribute [local instance (2000)] instPowNat

namespace Scalar

/-! ### Ranges of numbers -/

/-- **A whole number that is its own 64-bit form**: an integer below `2 ^ 63`, without places, of
which a 64-bit float holds all bits, or a short decimal without a fraction. -/
def Whole (a : Scalar) : Prop :=
  (a.places = 0 ∧ a.unscaled.natAbs < 2 ^ 63 ∧ double.Held a.unscaled.natAbs) ∨
    (a.Short ∧ (10 : Int) ^ a.places ∣ a.unscaled)

/-- **Numbers that rounding does not confuse.** -/
inductive RoundingSafe (a b : Scalar) : Prop
  /-- Two integers are compared as they are. -/
  | ints (ha : a.int?.isSome = true) (hb : b.int?.isSome = true)
  /-- Two floats are converted exactly. -/
  | floats (ha : a.isFloat = true) (hb : b.isFloat = true)
  /-- Neither has more than 38 places, and they differ by some part of the larger one. -/
  | apart (ha : a.places ≤ 38) (hb : b.places ≤ 38)
      (h : ∀ p q, a.number? = some p → b.number? = some q → max |p| |q| ≤ 2 ^ 48 * |p - q|)
  /-- They are written with the same digits. -/
  | digits (ha : a.isExact = true) (hb : b.isExact = true) (hunscaled : a.unscaled = b.unscaled)
      (hplaces : a.places = b.places)
  | short (ha : a.isExact = true) (hb : b.isExact = true) (hashort : a.Short) (hbshort : b.Short)
  | wholeFloat (ha : a.isExact = true) (hwhole : a.Whole) (hb : b.isFloat = true)
  | floatWhole (ha : a.isFloat = true) (hb : b.isExact = true) (hwhole : b.Whole)

mutual

/-- **Rounding confuses no numbers in two values**: not the two themselves, and in lists not the
numbers at one place. -/
def RoundingSafeIn : Scalar → Scalar → Prop
  | .list xs, .list ys => RoundingSafeAll xs ys
  | a, b => a.kind = .number → b.kind = .number → a.RoundingSafe b

def RoundingSafeAll : List Scalar → List Scalar → Prop
  | x :: xs, y :: ys => RoundingSafeIn x y ∧ RoundingSafeAll xs ys
  | _, _ => True

end

variable {a b : Scalar}

theorem SameDouble.symm (h : a.SameDouble b) : b.SameDouble a := by
  obtain ⟨x, y, hx, hy, hxy⟩ := h
  refine ⟨y, x, hy, hx, ?_⟩
  rw [FloatValue.compare?_swap, hxy]
  rfl

theorem isExact_or_isFloat (h : a.kind = .number) : a.isExact = true ∨ a.isFloat = true := by
  cases a <;> cases h <;> first | exact .inl rfl | exact .inr rfl

theorem isFloat_eq_false_of_isExact (h : a.isExact = true) : a.isFloat = false := by
  cases a <;> first | rfl | cases h

/-! ### Numbers that are apart -/

/-- The 64-bit form of a number of at most 38 places is near the number. -/
theorem exists_double_near {p : ℚ} (hplaces : a.places ≤ 38) (hp : a.number? = some p) :
    ∃ s n, a.double? = some (.finite s n) ∧
      |(FloatValue.signedUnits s n : ℚ) - p * (2 ^ double.unitPlaces : Nat)| ≤
        |p| * (2 ^ double.unitPlaces : Nat) / 2 ^ 50 := by
  have hexact : a.isExact = true → ∃ s n, a.double? = some (.finite s n) ∧
      |(FloatValue.signedUnits s n : ℚ) - p * (2 ^ double.unitPlaces : Nat)| ≤
        |p| * (2 ^ double.unitPlaces : Nat) / 2 ^ 50 := by
    intro ha
    obtain ⟨d, hdouble, hnumber, -, hscale⟩ := exists_decimal ha
    obtain rfl : d.number = p := Option.some.inj (hnumber.symm.trans hp)
    obtain ⟨s, n, hform, hnear⟩ := Decimal.exists_abs_sub_le (hscale ▸ hplaces)
    exact ⟨s, n, hform ▸ hdouble, hnear⟩
  cases a with
  | int t v | decimal d => exact hexact rfl
  | float t v =>
    have hvalue := (FloatType.number?_toDouble v).trans hp
    obtain ⟨s, n, hform⟩ := FloatFormat.exists_finite_of_number? hvalue
    refine ⟨s, n, congrArg some hform, ?_⟩
    have hpow : (2 : ℚ) ^ double.unitPlaces ≠ 0 := pow_ne_zero _ two_ne_zero
    rw [hform, FloatFormat.number?, Option.some_inj, div_eq_iff hpow] at hvalue
    rw [hvalue, Nat.cast_pow, Nat.cast_ofNat, sub_self, abs_zero]
    positivity
  | _ => cases hp

/-- What is equal to a finite form is a number. -/
theorem exists_number_of_sameDouble (ha : a.kind = .number) {s : Bool} {n : Nat}
    (hb : b.double? = some (.finite s n)) (h : a.SameDouble b) : ∃ p, a.number? = some p := by
  cases a with
  | int t v | decimal d => exact ⟨_, rfl⟩
  | float t v =>
    obtain ⟨x, y, hx, hy, hxy⟩ := h
    obtain rfl : FloatValue.finite s n = y := Option.some.inj (hb.symm.trans hy)
    obtain ⟨r, hr, hinf⟩ | ⟨r, m, _, _, hfinite, -⟩ := FloatValue.compare?_eq_iff.mp hxy
    · cases hinf
    · have hform : t.toDouble v = .finite r m := (Option.some.inj hx).trans hfinite
      rw [number?, ← FloatType.number?_toDouble, hform]
      exact ⟨_, rfl⟩
  | _ => cases ha

/-- Numbers that are apart are one number only if both are zero, and so are their forms. -/
theorem sameNumber_iff_of_apart (hakind : a.kind = .number) (hbkind : b.kind = .number)
    (hexact : a.isExact = true ∨ b.isExact = true) (ha : a.places ≤ 38) (hb : b.places ≤ 38)
    (h : ∀ p q, a.number? = some p → b.number? = some q → max |p| |q| ≤ 2 ^ 48 * |p - q|) :
    a.SameNumber b ↔ a.SameDouble b := by
  have hunit : (0 : ℚ) < (2 ^ double.unitPlaces : Nat) := Nat.cast_pos.mpr (Nat.two_pow_pos _)
  have hforms : ∀ {p q : ℚ}, a.number? = some p → b.number? = some q →
      (a.SameDouble b ↔ p = q) := by
    intro p q hp hq
    obtain ⟨s, m, hadouble, hm⟩ := exists_double_near ha hp
    obtain ⟨t, n, hbdouble, hn⟩ := exists_double_near hb hq
    have hcompare := Decimal.compare_of_apart hunit hm hn (h p q hp hq)
    simp only [SameDouble, hadouble, hbdouble, Option.some_inj, exists_and_left, exists_eq_left',
      FloatValue.compare?]
    rw [hcompare, compare_eq_iff_eq]
  have hnumber : ∀ {c : Scalar}, c.isExact = true → ∃ p, c.number? = some p := fun hc =>
    (exists_decimal hc).imp' Decimal.number fun _ hd => hd.2.1
  constructor
  · rintro ⟨q, hp, hq, -⟩
    exact (hforms hp hq).mpr rfl
  · intro hsame
    obtain ⟨p, q, hp, hq⟩ : ∃ p q, a.number? = some p ∧ b.number? = some q := by
      rcases hexact with hc | hc
      · obtain ⟨p, hp⟩ := hnumber hc
        obtain ⟨s, m, hadouble, -⟩ := exists_double_near ha hp
        obtain ⟨q, hq⟩ := exists_number_of_sameDouble hbkind hadouble hsame.symm
        exact ⟨p, q, hp, hq⟩
      · obtain ⟨q, hq⟩ := hnumber hc
        obtain ⟨t, n, hbdouble, -⟩ := exists_double_near hb hq
        obtain ⟨p, hp⟩ := exists_number_of_sameDouble hakind hbdouble hsame
        exact ⟨p, q, hp, hq⟩
    obtain rfl := (hforms hp hq).mp hsame
    have hzero : p = 0 := by
      have hle := h p p hp hq
      rw [max_self, sub_self, abs_zero, mul_zero, abs_nonpos_iff] at hle
      exact hle
    exact ⟨p, hp, hq, fun _ => ⟨0, by rw [hzero, Int.cast_zero], by decide⟩⟩

/-! ### Exact numbers -/

/-- Integers and decimals whose order tells whether they are equal. -/
theorem sameNumber_iff_of_isExact (ha : a.isExact = true) (hb : b.isExact = true)
    (hint : a.int? = none ∨ b.int? = none)
    (h : ∀ p q, a.number? = some p → b.number? = some q →
      (a.compare? b = some .eq ↔ p = q)) : a.SameNumber b ↔ a.SameDouble b := by
  obtain ⟨d, -, hp, -⟩ := exists_decimal ha
  obtain ⟨e, -, hq, -⟩ := exists_decimal hb
  rw [← compare?_eq_iff_sameDouble (kind_of_isExact ha) (kind_of_isExact hb) hint, h _ _ hp hq]
  constructor
  · rintro ⟨r, hr, hr', -⟩
    exact (Option.some.inj (hp.symm.trans hr)).trans (Option.some.inj (hq.symm.trans hr')).symm
  · intro heq
    refine ⟨_, hp, heq ▸ hq, ?_⟩
    rw [isFloat_eq_false_of_isExact ha, isFloat_eq_false_of_isExact hb]
    exact fun hf => by simp at hf

theorem compare?_eq_iff_of_short (ha : a.isExact = true) (hb : b.isExact = true)
    (hashort : a.Short) (hbshort : b.Short) {p q : ℚ} (hp : a.number? = some p)
    (hq : b.number? = some q) : a.compare? b = some .eq ↔ p = q := by
  obtain ⟨p', q', o, hp', hq', ho, -, hshort, -⟩ := compare?_exact ha hb
  obtain rfl := Option.some.inj (hp.symm.trans hp')
  obtain rfl := Option.some.inj (hq.symm.trans hq')
  rw [ho, hshort hashort hbshort, Option.some_inj, compare_eq_iff_eq]

/-- Numbers of the same digits are equal, also by their forms. -/
theorem compare?_eq_iff_of_digits (ha : a.isExact = true) (hb : b.isExact = true)
    (hunscaled : a.unscaled = b.unscaled) (hplaces : a.places = b.places) {p q : ℚ}
    (hp : a.number? = some p) (hq : b.number? = some q) :
    a.compare? b = some .eq ↔ p = q := by
  obtain ⟨d, -, hd, hdu, hds⟩ := exists_decimal ha
  obtain ⟨e, -, he, heu, hes⟩ := exists_decimal hb
  have hpq : p = q := by
    obtain rfl := Option.some.inj (hd.symm.trans hp)
    obtain rfl := Option.some.inj (he.symm.trans hq)
    rw [Decimal.number, Decimal.number, hdu, heu, hds, hes, hunscaled, hplaces]
  obtain ⟨p', q', o, hp', hq', ho, -, -, -, horder⟩ := compare?_exact ha hb
  obtain rfl := Option.some.inj (hp.symm.trans hp')
  obtain rfl := Option.some.inj (hq.symm.trans hq')
  rw [ho, Option.some_inj]
  rcases horder hplaces with rfl | rfl
  · exact compare_eq_iff_eq
  · exact iff_of_true rfl hpq

/-! ### Whole numbers -/

/-- The 64-bit form of a whole number is the number. -/
theorem Whole.exists_form (ha : a.isExact = true) (h : a.Whole) : ∃ v : Int,
    a.number? = some (v : ℚ) ∧ v.natAbs < 2 ^ 63 ∧
      a.double? = some (.finite (v < 0) (v.natAbs * 2 ^ double.unitPlaces)) := by
  obtain ⟨d, hdouble, hnumber, hunscaled, hscale⟩ := exists_decimal ha
  rw [hdouble, hnumber]
  rcases h with ⟨hplaces, hlt, hheld⟩ | ⟨hshort, v, hv⟩
  · rw [← hunscaled] at hlt hheld
    rw [← hscale] at hplaces
    have hrange : d.unscaled.val.natAbs * 2 ^ double.unitPlaces < double.infinityUnits := by
      refine Nat.lt_of_lt_of_le (Nat.mul_lt_mul_of_pos_right hlt (Nat.two_pow_pos _)) ?_
      rw [FloatFormat.infinityUnits, ← Nat.pow_add]
      exact Nat.pow_le_pow_right (by decide) (by decide)
    refine ⟨d.unscaled.val, ?_, hlt, ?_⟩
    · rw [Decimal.number, hplaces, pow_zero, div_one]
    · rw [Decimal.toDouble_of_scale_eq_zero hplaces, FloatFormat.ofInt_of_held hrange hheld]
  · rw [Short, ← hunscaled, ← hscale] at hshort
    rw [← hunscaled, ← hscale, Int.mul_comm] at hv
    have hpos : (0 : Int) < 10 ^ d.scale := Int.pow_pos (by decide)
    have hsign : (d.unscaled.val < 0) = (v < 0) := by
      rw [hv, eq_iff_iff]
      exact ⟨fun h => neg_of_mul_neg_left h hpos.le, fun h => mul_neg_of_neg_of_pos h hpos⟩
    refine ⟨v, ?_, ?_, ?_⟩
    · rw [Decimal.number, hv, Int.cast_mul]
      push_cast
      rw [mul_div_cancel_right₀ _ (by positivity)]
    · have hle : v.natAbs ≤ d.unscaled.val.natAbs := by
        rw [hv, Int.natAbs_mul]
        exact Nat.le_mul_of_pos_right _ (Int.natAbs_pos.mpr hpos.ne')
      exact Nat.lt_of_le_of_lt hle (Nat.lt_trans hshort.1 (by decide))
    · rw [Decimal.toDouble_of_short_of_dvd hshort hv]
      simp only [hsign]

/-- A whole number is equal to the floats that stand for it. -/
theorem sameNumber_iff_of_whole (ha : a.isExact = true) (hwhole : a.Whole)
    (hb : b.isFloat = true) : a.SameNumber b ↔ a.SameDouble b := by
  obtain ⟨v, hnumber, hlt, hdouble⟩ := hwhole.exists_form ha
  cases b with
  | float t w =>
    have hsame : a.SameDouble (float t w) ↔ (float t w).number? = some (v : ℚ) := by
      have hform : (float t w).double? = some (t.toDouble w) := rfl
      rw [number?, ← FloatType.number?_toDouble, ← FloatFormat.compare?_whole_eq_iff]
      simp only [SameDouble, hdouble, hform, Option.some_inj, exists_and_left, exists_eq_left']
    rw [hsame]
    constructor
    · rintro ⟨q, hq, hq', -⟩
      rw [hq', ← hq, hnumber]
    · exact fun h => ⟨v, hnumber, h, fun _ => ⟨v, rfl, hlt⟩⟩
  | _ => cases hb

/-! ### Keys and comparison -/

/-- **In these ranges, numbers have one 64-bit form if they are one number.** -/
theorem RoundingSafe.sameNumber_iff (h : a.RoundingSafe b) (ha : a.kind = .number)
    (hb : b.kind = .number) (hint : a.int? = none ∨ b.int? = none)
    (hexact : a.isExact = true ∨ b.isExact = true) : a.SameNumber b ↔ a.SameDouble b := by
  cases h with
  | ints haint hbint =>
    rcases hint with hnone | hnone
    · rw [hnone] at haint
      cases haint
    · rw [hnone] at hbint
      cases hbint
  | floats hafloat hbfloat =>
    rcases hexact with hc | hc
    · rw [isFloat_eq_false_of_isExact hc] at hafloat
      cases hafloat
    · rw [isFloat_eq_false_of_isExact hc] at hbfloat
      cases hbfloat
  | apart haplaces hbplaces hapart =>
    exact sameNumber_iff_of_apart ha hb hexact haplaces hbplaces hapart
  | digits haexact hbexact hunscaled hplaces =>
    exact sameNumber_iff_of_isExact haexact hbexact hint fun _ _ =>
      compare?_eq_iff_of_digits haexact hbexact hunscaled hplaces
  | short haexact hbexact hashort hbshort =>
    exact sameNumber_iff_of_isExact haexact hbexact hint fun _ _ =>
      compare?_eq_iff_of_short haexact hbexact hashort hbshort
  | wholeFloat haexact hwhole hbfloat => exact sameNumber_iff_of_whole haexact hwhole hbfloat
  | floatWhole hafloat hbexact hwhole =>
    have hswapped := sameNumber_iff_of_whole hbexact hwhole hafloat
    exact ⟨fun h => (hswapped.mp h.symm).symm, fun h => (hswapped.mpr h.symm).symm⟩

/-- Numbers of which not both are floats have one key if they are one number. -/
theorem key_eq_iff_of_number (ha : a.kind = .number) (hb : b.kind = .number)
    (hexact : a.isExact = true ∨ b.isExact = true) : a.key = b.key ↔ a.SameNumber b := by
  rcases hexact with haexact | hbexact
  · exact key_eq_iff_sameNumber haexact (isExact_or_isFloat hb)
  · rw [eq_comm, key_eq_iff_sameNumber hbexact (isExact_or_isFloat ha)]
    exact ⟨SameNumber.symm, SameNumber.symm⟩

/-- **Numbers that compare as equal** are ordered numbers of one key, if rounding allows it. -/
theorem compare?_number_eq_iff (ha : a.kind = .number) (hb : b.kind = .number)
    (h : a.RoundingSafe b) : a.compare? b = some .eq ↔ a.key = b.key ∧ a.ordered = true := by
  by_cases hint : a.int? = none ∨ b.int? = none
  · by_cases hexact : a.isExact = true ∨ b.isExact = true
    · rw [compare?_eq_iff_sameDouble ha hb hint, ← h.sameNumber_iff ha hb hint hexact,
        key_eq_iff_of_number ha hb hexact]
      exact ⟨fun hs => ⟨hs, hs.ordered⟩, And.left⟩
    · obtain ⟨haexact, hbexact⟩ := not_or.mp hexact
      have hafloat := (isExact_or_isFloat ha).resolve_left haexact
      have hbfloat := (isExact_or_isFloat hb).resolve_left hbexact
      cases a with
      | float s v =>
        cases b with
        | float t w => exact compare?_float_eq_iff v w
        | _ => cases hbfloat
      | _ => cases hafloat
  · obtain ⟨haint, hbint⟩ := not_or.mp hint
    cases a with
    | int s v =>
      cases b with
      | int t w => simp [compare?, key, ordered]
      | _ => exact absurd rfl hbint
    | _ => exact absurd rfl haint

/-! ### All values -/

attribute [local ext] Date TimeOfDay Timestamp

theorem compare?_eq_iff_of_kind_ne (hk : a.kind ≠ b.kind) :
    a.compare? b = some .eq ↔ a.key = b.key ∧ a.ordered = true := by
  constructor
  · exact fun h => absurd (kind_eq_of_compare? h) hk
  · exact fun h => absurd (kind_eq_of_key_eq h.1) hk

/-- Values other than lists. -/
theorem compare?_eq_iff_of_kind_ne_list (ha : a.kind ≠ .list) (h : a.RoundingSafeIn b) :
    a.compare? b = some .eq ↔ a.key = b.key ∧ a.ordered = true := by
  by_cases hk : a.kind = b.kind
  · cases a with
    | int t v | float t v | decimal d =>
      exact compare?_number_eq_iff rfl hk.symm (h rfl hk.symm)
    | null | struct fs =>
      cases b <;> cases hk
      simp [compare?, double?, ordered]
    | boolean x =>
      cases b <;> cases hk
      simp [compare?, key, ordered]
    | utf8 x =>
      cases b <;> cases hk
      simp [compare?, key, ordered, compareText_eq_iff]
    | binary x =>
      cases b <;> cases hk
      simp [compare?, key, ordered, compareBytes_eq_iff]
    | date x =>
      cases b <;> cases hk
      simp [compare?, key, ordered, Date.ext_iff, Bounded.ext_iff]
    | time x =>
      cases b <;> cases hk
      simp [compare?, key, ordered, TimeOfDay.ext_iff]
    | timestamp x zone =>
      cases b <;> cases hk
      simp [compare?, key, ordered, Timestamp.ext_iff, Bounded.ext_iff]
    | interval x =>
      cases b <;> cases hk
      exact compare?_interval_eq_iff x _
    | list xs => exact absurd rfl ha
  · exact compare?_eq_iff_of_kind_ne hk

mutual

/-- **Equality by comparison is equality of keys**, between values that comparison orders. -/
theorem compare?_eq_iff : ∀ {a b : Scalar}, a.RoundingSafeIn b →
    (a.compare? b = some .eq ↔ a.key = b.key ∧ a.ordered = true)
  | .list xs, b, h => by
    cases b with
    | list ys =>
      rw [compare?, key, key, ordered, Key.list.injEq]
      exact compareAll?_eq_iff h
    | _ => exact compare?_eq_iff_of_kind_ne (by simp [kind])
  | .null, _, h | .boolean _, _, h | .int _ _, _, h | .float _ _, _, h | .decimal _, _, h
  | .utf8 _, _, h | .binary _, _, h | .date _, _, h | .time _, _, h | .timestamp _ _, _, h
  | .interval _, _, h | .struct _, _, h => compare?_eq_iff_of_kind_ne_list (by simp [kind]) h

theorem compareAll?_eq_iff : ∀ {xs ys : List Scalar}, RoundingSafeAll xs ys →
    (compareAll? xs ys = some .eq ↔ keys xs = keys ys ∧ orderedAll xs = true)
  | [], [], _ | [], _ :: _, _ | _ :: _, [], _ => by simp [compareAll?, keys, orderedAll]
  | x :: r, y :: s, h => by
    have hx := compare?_eq_iff h.1
    have hr := compareAll?_eq_iff h.2
    rw [keys, keys, List.cons.injEq, orderedAll, Bool.and_eq_true, and_and_and_comm, ← hx, ← hr,
      compareAll?]
    cases x.compare? y with
    | none => simp
    | some o => cases o <;> simp

end

end Scalar

end TableQuery
