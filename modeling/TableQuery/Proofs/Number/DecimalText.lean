import TableQuery.Proofs.Number.Decimal
import TableQuery.Proofs.Sql.Literals

/-! # Decimals in digits

The text of a decimal is put together from a sign, a quotient and a remainder. Read as a number it
is the decimal exactly: a whole part without zeros to spare, and as many digits behind the point as
the scale says, zeros in front of the remainder among them (`exists_digits_text`). Reading takes the
digits of both parts for what they are worth at their places (`readNumber?`), and gives back the
number (`readNumber?_text`). The digits behind the point tell the scale, so different decimals are
written differently even where they are the same number. -/

namespace TableQuery

-- Powers are those of the core library, also where other instances are in scope.
attribute [local instance (2000)] instPowNat

/-! ### Digits -/

/-- **The digits of a whole number**: at least one, and no zero before others. -/
structure WholeDigits (ds : List Char) : Prop where
  isDigit : ∀ c ∈ ds, c.isDigit = true
  ne_nil : ds ≠ []
  leading : ds.head? = some '0' → ds = ['0']

/-- A sign, the digits of a whole number, and those behind the point, if there are any. -/
def numeral (negative : Bool) (whole fraction : List Char) : List Char :=
  (if negative then ['-'] else []) ++ (whole ++ if fraction = [] then [] else '.' :: fraction)

/-- Only zero is written with a zero in front. -/
theorem head?_toDigits {n : Nat} (h : (Nat.toDigits 10 n).head? = some '0') : n = 0 := by
  induction n using Nat.strong_induction_on with
  | _ n ih =>
    rcases Nat.lt_or_ge n 10 with hlt | hle
    · have hdigit : ∀ m < 10, Nat.digitChar m = '0' → m = 0 := by decide
      rw [Nat.toDigits_of_lt_base hlt, List.head?_cons, Option.some.injEq] at h
      exact hdigit n hlt h
    · rw [Nat.toDigits_of_base_le (by decide) hle,
        List.head?_append_of_ne_nil _ Nat.toDigits_ne_nil] at h
      have hzero := ih (n / 10) (by omega) h
      omega

theorem wholeDigits_toDigits (n : Nat) : WholeDigits (Nat.toDigits 10 n) where
  isDigit _ hc := Sql.isDigit_of_mem_toDigits hc
  ne_nil := Nat.toDigits_ne_nil
  leading h := by
    rw [head?_toDigits h]
    rfl

theorem toList_padZeros (width : Nat) (s : String) :
    (padZeros width s).toList = List.replicate (width - s.length) '0' ++ s.toList := by
  rw [padZeros, String.toList_append, String.pushn_eq_repeat_push]
  congr 1
  generalize width - s.length = n
  induction n with
  | zero => rfl
  | succ n ih => rw [Nat.repeat, String.toList_push, ih, List.replicate_succ']

/-- **Padding fills the places** of a remainder with digits that are worth nothing. -/
theorem digits_padZeros {k n : Nat} (hk : k ≠ 0) (h : n < 10 ^ k) :
    (padZeros k (toString n)).toList.length = k ∧
      (∀ c ∈ (padZeros k (toString n)).toList, c.isDigit = true) ∧
      Nat.ofDigitChars 10 (padZeros k (toString n)).toList 0 = n := by
  rw [toList_padZeros, Nat.toString_eq_ofList_toDigits, String.length_ofList, String.toList_ofList]
  have hlength : (Nat.toDigits 10 n).length ≤ k :=
    (Nat.length_toDigits_le_iff (by decide) (Nat.pos_of_ne_zero hk)).mpr h
  refine ⟨?_, fun c hc => ?_, ?_⟩
  · rw [List.length_append, List.length_replicate]
    omega
  · rcases List.mem_append.mp hc with hc | hc
    · rw [List.eq_of_mem_replicate hc]
      rfl
    · exact Sql.isDigit_of_mem_toDigits hc
  · rw [Nat.ofDigitChars_append, Nat.ofDigitChars_replicate_zero, Nat.mul_zero,
      Nat.ofDigitChars_ten_toDigits]

/-! ### Reading -/

/-- **What digits are worth** before and behind a point. -/
def digitsNumber (whole fraction : List Char) : ℚ :=
  (Nat.ofDigitChars 10 whole 0 : Nat) +
    (Nat.ofDigitChars 10 fraction 0 : Nat) / (10 : ℚ) ^ fraction.length

/-- The number written by digits with a point among them, or without one. -/
def readUnsigned? (cs : List Char) : Option ℚ :=
  let whole := cs.takeWhile Char.isDigit
  if whole.isEmpty then none
  else match cs.dropWhile Char.isDigit with
    | [] => some (digitsNumber whole [])
    | '.' :: fraction =>
      if fraction.isEmpty || !fraction.all Char.isDigit then none
      else some (digitsNumber whole fraction)
    | _ => none

/-- **The number that a text reads as**: digits, with a point among them or without one, and a minus
sign in front if it is negative. -/
def readNumber? (s : String) : Option ℚ :=
  match s.toList with
  | '-' :: cs => (readUnsigned? cs).map Neg.neg
  | cs => readUnsigned? cs

section Reading

variable {whole fraction : List Char}

theorem readUnsigned?_digits (hwhole : WholeDigits whole)
    (hfraction : ∀ c ∈ fraction, c.isDigit = true) :
    readUnsigned? (whole ++ if fraction = [] then [] else '.' :: fraction) =
      some (digitsNumber whole fraction) := by
  have hne : whole.isEmpty = false := List.isEmpty_eq_false_iff.mpr hwhole.ne_nil
  rw [readUnsigned?, List.takeWhile_append_of_pos hwhole.isDigit,
    List.dropWhile_append_of_pos hwhole.isDigit]
  by_cases hempty : fraction = []
  · simp [hempty, hne]
  · have hstop : ('.' :: fraction).takeWhile Char.isDigit = [] := rfl
    have hrest : ('.' :: fraction).dropWhile Char.isDigit = '.' :: fraction := rfl
    have hall : fraction.all Char.isDigit = true := List.all_eq_true.mpr hfraction
    have hne' : fraction.isEmpty = false := List.isEmpty_eq_false_iff.mpr hempty
    simp only [if_neg hempty, hstop, hrest, List.append_nil, hne, hne', hall, Bool.not_true,
      Bool.or_self, Bool.false_eq_true, if_false]

/-- **A numeral reads as** what its digits are worth, under its sign. -/
theorem readNumber?_numeral {s : String} {negative : Bool}
    (h : s.toList = numeral negative whole fraction) (hwhole : WholeDigits whole)
    (hfraction : ∀ c ∈ fraction, c.isDigit = true) :
    readNumber? s =
      some (if negative then -digitsNumber whole fraction else digitsNumber whole fraction) := by
  have hread := readUnsigned?_digits hwhole hfraction
  rw [readNumber?, h, numeral]
  cases negative with
  | true =>
    change (readUnsigned? (whole ++ _)).map Neg.neg = _
    rw [hread]
    rfl
  | false =>
    obtain ⟨c, r, rfl⟩ := List.exists_cons_of_ne_nil hwhole.ne_nil
    -- A digit is no sign.
    have hsign : c ≠ '-' := by
      rintro rfl
      exact absurd (hwhole.isDigit '-' List.mem_cons_self) (by decide)
    rw [if_neg Bool.false_ne_true, if_neg Bool.false_ne_true, List.nil_append]
    rw [List.cons_append] at hread ⊢
    split
    · rename_i cs hcs
      exact absurd (List.cons.inj hcs).1 hsign
    · exact hread

/-- The digits behind the point are found in the text. -/
theorem dropWhile_numeral (negative : Bool) (hwhole : WholeDigits whole) :
    (numeral negative whole fraction).dropWhile (· != '.') =
      if fraction = [] then [] else '.' :: fraction := by
  have hpoint : ∀ c ∈ whole, (c != '.') = true := by
    rintro c hc
    refine bne_iff_ne.mpr ?_
    rintro rfl
    exact absurd (hwhole.isDigit '.' hc) (by decide)
  have hrest : (whole ++ if fraction = [] then [] else '.' :: fraction).dropWhile (· != '.') =
      if fraction = [] then [] else '.' :: fraction := by
    rw [List.dropWhile_append_of_pos hpoint]
    split <;> rfl
  cases negative with
  | true => exact hrest
  | false => exact hrest

end Reading

/-! ### Decimals -/

namespace Decimal

/-- **The digits of a decimal**: the whole part, and the digits of the scale. -/
theorem exists_digits_text (d : Decimal) : ∃ whole fraction,
    d.text.toList = numeral (d.unscaled.val < 0) whole fraction ∧
    WholeDigits whole ∧ fraction.length = d.scale ∧ (∀ c ∈ fraction, c.isDigit = true) ∧
    Nat.ofDigitChars 10 whole 0 = d.unscaled.val.natAbs / 10 ^ d.scale ∧
    Nat.ofDigitChars 10 fraction 0 = d.unscaled.val.natAbs % 10 ^ d.scale := by
  have hsign : (if d.unscaled.val < 0 then "-" else "").toList =
      if decide (d.unscaled.val < 0) = true then ['-'] else [] := by
    by_cases h : d.unscaled.val < 0 <;> simp [h]
  have hpoint : ".".toList = ['.'] := rfl
  rw [text_eq, String.toList_append, hsign]
  by_cases hscale : d.scale = 0
  · refine ⟨Nat.toDigits 10 d.unscaled.val.natAbs, [], ?_, wholeDigits_toDigits _, hscale.symm,
      fun c hc => absurd hc List.not_mem_nil, ?_, ?_⟩
    · rw [unsignedText, if_pos hscale, Nat.toString_eq_ofList_toDigits, String.toList_ofList,
        numeral, if_pos rfl, List.append_nil]
    · rw [Nat.ofDigitChars_ten_toDigits, hscale, Nat.pow_zero, Nat.div_one]
    · rw [hscale, Nat.pow_zero, Nat.mod_one]
      rfl
  · obtain ⟨hlength, hdigits, hvalue⟩ := digits_padZeros hscale
      (Nat.mod_lt d.unscaled.val.natAbs (Nat.pow_pos (by decide : 0 < 10)))
    have hne : (padZeros d.scale (toString (d.unscaled.val.natAbs % 10 ^ d.scale))).toList ≠ [] :=
      fun h => hscale (by rw [← hlength, h]; rfl)
    refine ⟨Nat.toDigits 10 (d.unscaled.val.natAbs / 10 ^ d.scale), _, ?_, wholeDigits_toDigits _,
      hlength, hdigits, Nat.ofDigitChars_ten_toDigits, hvalue⟩
    rw [unsignedText, if_neg hscale, String.toList_append, String.toList_append, hpoint,
      Nat.toString_eq_ofList_toDigits, String.toList_ofList, numeral, if_neg hne, List.append_assoc,
      List.singleton_append]

/-- **The text of a decimal reads as its number.** -/
theorem readNumber?_text (d : Decimal) : readNumber? d.text = some d.number := by
  obtain ⟨whole, fraction, htext, hwhole, hlength, hdigits, hquotient, hremainder⟩ :=
    d.exists_digits_text
  have hpow : (10 : ℚ) ^ d.scale ≠ 0 := pow_ne_zero _ (by norm_num)
  have hparts : digitsNumber whole fraction = d.unscaled.val.natAbs / 10 ^ d.scale := by
    rw [digitsNumber, hquotient, hremainder, hlength, eq_div_iff hpow, add_mul,
      div_mul_cancel₀ _ hpow]
    exact_mod_cast Nat.div_add_mod' _ _
  rw [readNumber?_numeral htext hwhole hdigits, hparts, number, Nat.cast_natAbs]
  congr 1
  by_cases hneg : d.unscaled.val < 0
  · rw [if_pos (decide_eq_true hneg), abs_of_neg hneg, Int.cast_neg, neg_div, neg_neg]
  · rw [if_neg (by simpa using hneg), abs_of_nonneg (not_lt.mp hneg)]

/-- The text tells the scale. -/
theorem scale_eq_of_text_eq {d e : Decimal} (h : d.text = e.text) : d.scale = e.scale := by
  obtain ⟨whole, fraction, htext, hwhole, hlength, -⟩ := d.exists_digits_text
  obtain ⟨whole', fraction', htext', hwhole', hlength', -⟩ := e.exists_digits_text
  have hbehind : (if fraction = [] then [] else '.' :: fraction) =
      if fraction' = [] then [] else '.' :: fraction' := by
    rw [← dropWhile_numeral _ hwhole, ← htext, h, htext', dropWhile_numeral _ hwhole']
  rw [← hlength, ← hlength']
  by_cases hempty : fraction = [] <;> by_cases hempty' : fraction' = [] <;>
    simp_all

/-- **Different decimals are written differently.** -/
theorem text_injective : Function.Injective text := by
  intro d e h
  have hscale := scale_eq_of_text_eq h
  have hnumber : d.number = e.number := by
    rw [← Option.some_inj, ← readNumber?_text, ← readNumber?_text, h]
  rw [number_eq_iff, hscale] at hnumber
  have hval := Int.eq_of_mul_eq_mul_right (by positivity) hnumber
  cases d
  cases e
  cases Bounded.ext hval
  cases hscale
  rfl

/-- **The text of a decimal is exact**, also as a literal: a minus sign if the unscaled value is
negative, a whole part without zeros to spare, behind a point as many digits as the scale says, and
read as a number the unscaled value over a power of ten. No two decimals have one text. -/
theorem text_exact (d : Decimal) :
    Scalar.text (.decimal d) = d.text ∧ Sql.literal (.decimal d) = d.text ∧
    (∃ whole fraction, d.text.toList = numeral (d.unscaled.val < 0) whole fraction ∧
      WholeDigits whole ∧ fraction.length = d.scale ∧ ∀ c ∈ fraction, c.isDigit = true) ∧
    readNumber? d.text = some ((d.unscaled.val : ℚ) / 10 ^ d.scale) ∧
    ∀ e : Decimal, e.text = d.text → e = d := by
  obtain ⟨whole, fraction, htext, hwhole, hlength, hdigits, -, -⟩ := d.exists_digits_text
  exact ⟨rfl, rfl, ⟨whole, fraction, htext, hwhole, hlength, hdigits⟩, d.readNumber?_text,
    fun _ h => text_injective h⟩

end Decimal

end TableQuery
