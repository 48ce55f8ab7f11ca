import TableQuery.Proofs.Number.Decimal
import TableQuery.Proofs.Scalar.Swap

/-! # Comparing integers and decimals

Two integers compare exactly, but a decimal is compared through its 64-bit form.
`Scalar.compare?_exact` says what the order still tells of the numbers. It is exact for short
numbers and for those that are apart. Other decimals may be rounded to one value, and then compare
as equal though they differ, or, at different scales, to two though they are equal
(`Scalar.not_compare?_exact`). -/

namespace TableQuery

namespace Scalar

/-! ### Exact numbers -/

/-- The unscaled integer of an integer or decimal. -/
def unscaled : Scalar → Int
  | .int _ v => v.val
  | .decimal d => d.unscaled.val
  | _ => 0

/-- The number of places of a decimal; an integer has none. -/
def places : Scalar → Nat
  | .decimal d => d.scale
  | _ => 0

/-- **A short number**: its unscaled integer is below `2 ^ 52`, with 22 places at most. -/
def Short (a : Scalar) : Prop := a.unscaled.natAbs < 2 ^ 52 ∧ a.places ≤ 22

instance (a : Scalar) : Decidable a.Short := inferInstanceAs (Decidable (_ ∧ _))

/-- Every integer or decimal is compared with other numbers as some decimal is. -/
theorem exists_decimal {a : Scalar} (h : a.isExact = true) : ∃ d : Decimal,
    a.double? = some d.toDouble ∧ a.number? = some d.number ∧ d.unscaled.val = a.unscaled ∧
      d.scale = a.places := by
  cases a with
  | decimal d => exact ⟨d, rfl, rfl, rfl, rfl⟩
  | int t v =>
    have hlo := t.int128_range.1
    have hhi := t.int128_range.2
    refine ⟨⟨⟨v.val, hlo.trans v.lo_le, v.le_hi.trans hhi⟩, 0⟩, ?_, ?_, rfl, rfl⟩
    · rw [Decimal.toDouble_of_scale_eq_zero rfl]
      rfl
    · simp [number?, Decimal.number]
  | _ => cases h

theorem kind_of_isExact {a : Scalar} (h : a.isExact = true) : a.kind = .number := by
  cases a <;> first | rfl | cases h

theorem unscaled_of_int {a : Scalar} {m : Int} (h : a.int? = some m) :
    m = a.unscaled ∧ a.places = 0 := by
  cases a <;> cases h
  exact ⟨rfl, rfl⟩

/-- **Comparing exact numbers**: integers and decimals always have an order. It is that of the
numbers if both are integers, if both are short, or if neither has more than 38 places and they are
apart by some part of the larger one. If both have the same number of places, the order is that of
the numbers or makes them equal. -/
theorem compare?_exact {a b : Scalar} (ha : a.isExact = true) (hb : b.isExact = true) :
    ∃ p q o, a.number? = some p ∧ b.number? = some q ∧ a.compare? b = some o ∧
      (a.int?.isSome → b.int?.isSome → o = compare p q) ∧
      (a.Short → b.Short → o = compare p q) ∧
      (a.places ≤ 38 → b.places ≤ 38 → max |p| |q| ≤ 2 ^ 48 * |p - q| → o = compare p q) ∧
      (a.places = b.places → o = compare p q ∨ o = .eq) := by
  obtain ⟨d, hadouble, hanum, hau, has⟩ := exists_decimal ha
  obtain ⟨e, hbdouble, hbnum, hbu, hbs⟩ := exists_decimal hb
  refine ⟨d.number, e.number, ?_⟩
  by_cases hint : a.int? = none ∨ b.int? = none
  · have hform := FloatValue.compare?_eq_order d.toDouble_ne_nan e.toDouble_ne_nan
    refine ⟨FloatValue.order d.toDouble e.toDouble, hanum, hbnum, ?_, ?_, ?_, ?_, ?_⟩
    · rw [compare?_of_number (kind_of_isExact ha) (kind_of_isExact hb) hint, hadouble, hbdouble,
        Option.bind_some, Option.bind_some, hform]
    · intro haint hbint
      rcases hint with h | h
      · simp [h] at haint
      · simp [h] at hbint
    · intro hashort hbshort
      rw [Short, ← hau, ← has] at hashort
      rw [Short, ← hbu, ← hbs] at hbshort
      rw [← Option.some_inj, ← hform]
      exact Decimal.compare?_toDouble_of_short hashort hbshort
    · intro haplaces hbplaces hapart
      rw [← has] at haplaces
      rw [← hbs] at hbplaces
      rw [← Option.some_inj, ← hform]
      exact Decimal.compare?_toDouble_of_apart haplaces hbplaces hapart
    · rw [← has, ← hbs]
      exact Decimal.order_toDouble_of_scale_eq
  · obtain ⟨haint, hbint⟩ := not_or.mp hint
    obtain ⟨m, hm⟩ := Option.ne_none_iff_exists'.mp haint
    obtain ⟨n, hn⟩ := Option.ne_none_iff_exists'.mp hbint
    obtain ⟨rfl, ha0⟩ := unscaled_of_int hm
    obtain ⟨rfl, hb0⟩ := unscaled_of_int hn
    have hcompare : compare a.unscaled b.unscaled = compare d.number e.number := by
      rw [← hau, ← hbu]
      refine compare_congr (fun h => ?_) (fun h => ?_) (fun h => ?_)
      · simpa [has, hbs, ha0, hb0] using Decimal.number_lt_iff.mp h
      · simpa [has, hbs, ha0, hb0] using Decimal.number_eq_iff.mp h
      · simpa [has, hbs, ha0, hb0] using Decimal.number_lt_iff.mp h
    refine ⟨_, hanum, hbnum, compare?_of_int hm hn, fun _ _ => hcompare, fun _ _ => hcompare,
      fun _ _ _ => hcompare, fun _ => .inl hcompare⟩

/-- Two decimals and an integer: `1.5` is above `1` and below `1.50001`. -/
theorem compare?_exact_places :
    (decimal ⟨⟨15, by decide, by decide⟩, 1⟩).compare? (int .int8 ⟨1, by decide, by decide⟩) =
        some .gt ∧
      (decimal ⟨⟨15, by decide, by decide⟩, 1⟩).compare?
        (decimal ⟨⟨150001, by decide, by decide⟩, 5⟩) = some .lt := by
  constructor
  · obtain ⟨p, q, o, hp, hq, ho, -, hshort, -⟩ := compare?_exact
      (a := decimal ⟨⟨15, by decide, by decide⟩, 1⟩) (b := int .int8 ⟨1, by decide, by decide⟩)
      rfl rfl
    obtain rfl := Option.some.inj hp
    obtain rfl := Option.some.inj hq
    rw [ho, hshort (by decide) (by decide)]
    exact congrArg some (compare_gt_iff_gt.mpr (by norm_num))
  · obtain ⟨p, q, o, hp, hq, ho, -, -, hapart, -⟩ := compare?_exact
      (a := decimal ⟨⟨15, by decide, by decide⟩, 1⟩)
      (b := decimal ⟨⟨150001, by decide, by decide⟩, 5⟩) rfl rfl
    obtain rfl := Option.some.inj hp
    obtain rfl := Option.some.inj hq
    rw [ho, hapart (by decide) (by decide) (by norm_num [abs_of_pos, abs_of_neg])]
    exact congrArg some (compare_lt_iff_lt.mpr (by norm_num))

/-- **Longer decimals** are rounded: two whole numbers above `2 ^ 53` that differ by one are equal
in order. -/
theorem not_compare?_exact :
    ¬ ∀ a b : Scalar, a.isExact = true → b.isExact = true → a.places ≤ 38 → b.places ≤ 38 →
      ∃ p q, a.number? = some p ∧ b.number? = some q ∧ a.compare? b = some (compare p q) := by
  intro h
  obtain ⟨p, q, hp, hq, ho⟩ := h (.decimal ⟨⟨9007199254740993, by decide, by decide⟩, 0⟩)
    (.decimal ⟨⟨9007199254740992, by decide, by decide⟩, 0⟩) rfl rfl (by decide) (by decide)
  have heq : compare? (.decimal ⟨⟨9007199254740993, by decide, by decide⟩, 0⟩)
      (.decimal ⟨⟨9007199254740992, by decide, by decide⟩, 0⟩) = some .eq := by
    decide +kernel
  obtain rfl := Option.some.inj hp
  obtain rfl := Option.some.inj hq
  rw [heq, Option.some_inj, eq_comm, compare_eq_iff_eq] at ho
  norm_num at ho

end Scalar

end TableQuery
