import Mathlib.Data.Rat.Floor
import TableQuery.Proofs.Arithmetic.Intervals

/-! # Shifting by intervals of fixed length

A timestamp is shifted by an interval of fixed length as its instant is moved by the length in
nanoseconds. So shifting back undoes a shift, and the difference of the two timestamps is the length
again. A date is shifted from its midnight, and the time of day is dropped from the result, which is
rounding down, also backwards. `Scalar.compute_shift` puts these together. -/

namespace TableQuery

open IntervalUnit

/-! ### Instants -/

namespace Timestamp

theorem eq_of_instant {s t : Timestamp} (h : s.instant.val = t.instant.val) : s = t := by
  cases s
  cases t
  exact congrArg Timestamp.mk (Bounded.ext h)

theorem addNanos?_eq_some_iff {t u : Timestamp} {n : Int} :
    t.addNanos? n = some u ↔ u.instant.val = t.instant.val + n := by
  rw [addNanos?, ofInstant?, Option.map_eq_some_iff]
  constructor
  · rintro ⟨b, hb, rfl⟩
    exact Bounded.ofInt?_eq_some_iff.mp hb
  · intro h
    exact ⟨u.instant, Bounded.ofInt?_eq_some_iff.mpr h, rfl⟩

/-- A timestamp of every instant within the calendar. -/
theorem exists_instant {n : Int} (h : minInstant ≤ n ∧ n ≤ maxInstant) :
    ∃ t : Timestamp, t.instant.val = n := ⟨⟨⟨n, h.1, h.2⟩⟩, rfl⟩

@[simp] theorem instant_ofDate (d : Date) :
    (ofDate d).instant.val = d.day.val * 86400000000000 := Int.add_zero _

@[simp] theorem day_date (t : Timestamp) : t.date.day.val = t.instant.val / 86400000000000 := rfl

end Timestamp

namespace Scalar

variable {iv : Interval} {per : Int}

/-! ### Shifts -/

theorem exists_ofInt64?_iff {v : Int} {P : Int64Value → Prop} :
    (∃ b, IntType.int64.ofInt? v = some b ∧ P b) ↔
      ∃ h : IntType.int64.Fits v, P ⟨v, h.1, h.2⟩ := by
  constructor
  · rintro ⟨b, hb, hP⟩
    obtain rfl := Bounded.ofInt?_eq_some_iff.mp hb
    exact ⟨⟨b.lo_le, b.le_hi⟩, hP⟩
  · rintro ⟨h, hP⟩
    exact ⟨_, Bounded.ofInt?_of_within h, hP⟩

/-- A shift by a unit of fixed length, which has no months. -/
theorem shift_eq (hper : iv.unit.nanos? = some per) (t : Timestamp) (backwards : Bool) :
    shift t iv backwards =
      match (IntType.int64.ofInt? (if backwards then -iv.count.val else iv.count.val)).bind
          fun n => (IntType.int64.ofInt? (n.val * per)).bind fun nanos => t.addNanos? nanos.val with
      | some u => .ok u
      | none => .error (.eval (.shiftOutOfRange t iv)) := by
  have hmonths : iv.unit.months? = none := by
    cases hm : iv.unit.months? with
    | none => rfl
    | some m =>
      rw [nanos?_eq_none_of_months hm] at hper
      cases hper
  have hcount : IntType.int64.ofInt? iv.count.val = some iv.count := Bounded.ofInt?_val _
  cases backwards with
  | false =>
    simp only [shift, hmonths, hper, Bool.false_eq_true, if_false, hcount]
    rfl
  | true =>
    simp only [shift, hmonths, hper, if_true]
    rfl

/-- **A shift moves the instant** by the length of the interval, if count and length fit 64 bits. -/
theorem shift_eq_ok_iff (hper : iv.unit.nanos? = some per) {t u : Timestamp} {backwards : Bool}
    {n : Int} (hn : n = if backwards then -iv.count.val else iv.count.val) :
    shift t iv backwards = .ok u ↔ IntType.int64.Fits n ∧ IntType.int64.Fits (n * per) ∧
      u.instant.val = t.instant.val + n * per := by
  have hresult : ∀ {o : Option Timestamp} {e : Error},
      (match o with
        | some u => Except.ok u
        | none => .error e) = .ok u ↔ o = some u := by
    intro o e
    cases o <;> simp
  rw [shift_eq hper, ← hn, hresult]
  simp only [Option.bind_eq_some_iff, exists_ofInt64?_iff, exists_prop,
    Timestamp.addNanos?_eq_some_iff]

variable {total : Int}

theorem shift_forwards_iff (h : iv.length? nanos? = some total) {t u : Timestamp} :
    shift t iv false = .ok u ↔
      IntType.int64.Fits total ∧ u.instant.val = t.instant.val + total := by
  obtain ⟨per, hper, rfl⟩ := Option.map_eq_some_iff.mp h
  rw [shift_eq_ok_iff (n := iv.count.val) hper rfl]
  exact and_iff_right ⟨iv.count.lo_le, iv.count.le_hi⟩

theorem shift_backwards_iff (h : iv.length? nanos? = some total) {t u : Timestamp} :
    shift t iv true = .ok u ↔ iv.count.val ≠ IntType.int64.lo ∧ IntType.int64.Fits (-total) ∧
      u.instant.val = t.instant.val + -total := by
  obtain ⟨per, hper, rfl⟩ := Option.map_eq_some_iff.mp h
  have hlo := iv.count.lo_le
  have hhi := iv.count.le_hi
  have hnegated : IntType.int64.Fits (-iv.count.val) ↔ iv.count.val ≠ IntType.int64.lo := by
    simp only [IntType.Fits, IntType.lo, IntType.hi] at *
    omega
  rw [shift_eq_ok_iff (n := -iv.count.val) hper rfl, hnegated, Int.neg_mul]

/-- The least length of 64 bits is that of no interval but one that counts nanoseconds: every other
unit is a multiple of a thousand. -/
theorem fits_neg_length (h : iv.length? nanos? = some total) (hfits : IntType.int64.Fits total)
    (hcount : iv.count.val ≠ IntType.int64.lo) : IntType.int64.Fits (-total) := by
  obtain ⟨per, hper, rfl⟩ := Option.map_eq_some_iff.mp h
  have hmultiple : per = 1 ∨ (1000 : Int) ∣ per := by
    cases hunit : iv.unit <;> rw [hunit] at hper <;> cases hper <;> decide
  simp only [IntType.Fits, IntType.lo, IntType.hi] at *
  rcases hmultiple with rfl | ⟨k, rfl⟩
  · omega
  · have hlength : iv.count.val * (1000 * k) = 1000 * (iv.count.val * k) := by
      rw [Int.mul_left_comm]
    omega

/-! ### Dates -/

/-- The date of a moved midnight is rounded down. -/
theorem exists_moved_midnight_iff {d e : Date} {n : Int} :
    (∃ u : Timestamp, u.instant.val = (Timestamp.ofDate d).instant.val + n ∧ u.date = e) ↔
      e.day.val = d.day.val + ⌊(n : ℚ) / nanosPerDay⌋ := by
  have hday : ((nanosPerDay : ℕ) : ℤ) = 86400000000000 := rfl
  rw [Rat.floor_intCast_div_natCast, hday, Timestamp.instant_ofDate]
  constructor
  · rintro ⟨u, hu, rfl⟩
    rw [Timestamp.day_date, hu]
    omega
  · intro h
    have hlo := e.day.lo_le
    have hhi := e.day.le_hi
    obtain ⟨u, hu⟩ := Timestamp.exists_instant (n := d.day.val * 86400000000000 + n) (by
      unfold minInstant maxInstant
      unfold minDay maxDay at *
      omega)
    refine ⟨u, hu, congrArg Date.mk (Bounded.ext ?_)⟩
    rw [h]
    change u.instant.val / 86400000000000 = _
    rw [hu]
    omega

theorem map_shift_date_iff {d : Date} {backwards : Bool} {v : Scalar} {n : Int} {c : Prop}
    (h : ∀ u : Timestamp, shift (.ofDate d) iv backwards = .ok u ↔
      c ∧ u.instant.val = (Timestamp.ofDate d).instant.val + n) :
    (shift (.ofDate d) iv backwards).map (date ·.date) = .ok v ↔
      c ∧ ∃ e : Date, v = date e ∧ e.day.val = d.day.val + ⌊(n : ℚ) / nanosPerDay⌋ := by
  rw [Result.map_eq_ok_iff]
  constructor
  · rintro ⟨u, hu, rfl⟩
    obtain ⟨hc, hmoved⟩ := (h u).mp hu
    exact ⟨hc, u.date, rfl, exists_moved_midnight_iff.mp ⟨u, hmoved, rfl⟩⟩
  · rintro ⟨hc, e, rfl, he⟩
    obtain ⟨u, hmoved, rfl⟩ := exists_moved_midnight_iff.mpr he
    exact ⟨u, (h u).mpr ⟨hc, hmoved⟩, rfl⟩

/-! ### The operations -/

theorem compute_add_timestamp (t : Timestamp) (zone : Option String) (iv : Interval) :
    compute .add (timestamp t zone) (interval iv) =
      (shift t iv false).map (timestamp · zone) := rfl

theorem compute_sub_timestamp (t : Timestamp) (zone : Option String) (iv : Interval) :
    compute .sub (timestamp t zone) (interval iv) =
      (shift t iv true).map (timestamp · zone) := rfl

theorem compute_add_date (d : Date) (iv : Interval) :
    compute .add (date d) (interval iv) = (shift (.ofDate d) iv false).map (date ·.date) := rfl

theorem compute_sub_date (d : Date) (iv : Interval) :
    compute .sub (date d) (interval iv) = (shift (.ofDate d) iv true).map (date ·.date) := rfl

theorem compute_sub_timestamps {t u : Timestamp} {zone : Option String} {n : Int64Value}
    (h : u.instant.val = t.instant.val + n.val) :
    compute .sub (timestamp u zone) (timestamp t zone) = .ok (interval ⟨n, .nanosecond⟩) := by
  have hdifference : IntType.int64.ofInt? (u.instant.val - t.instant.val) = some n :=
    Bounded.ofInt?_eq_some_iff.mpr (by omega)
  have hcompute : compute .sub (timestamp u zone) (timestamp t zone) =
      intervalOp .sub .nanosecond (timestamp u zone) (timestamp t zone) := rfl
  simp only [hcompute, intervalOp, hdifference]

/-- **Shifting by an interval of fixed length is exact and reversible.** A timestamp is moved by the
length of the interval, and keeps its zone. Shifting the result back gives the timestamp again,
unless the count of the interval is the one that has no negative. The result is later than the
timestamp by just the length. A date is moved by the whole days of the length, rounded down,
forwards and backwards. In a sum the interval may stand on either side. -/
theorem compute_shift (h : iv.length? nanos? = some total) :
    (∀ t zone v, compute .add (timestamp t zone) (interval iv) = .ok v ↔
      IntType.int64.Fits total ∧
        ∃ u : Timestamp, v = timestamp u zone ∧ u.instant.val = t.instant.val + total) ∧
    (∀ t zone v, compute .add (timestamp t zone) (interval iv) = .ok v →
      (∀ w, compute .sub v (interval iv) = .ok w ↔
        iv.count.val ≠ IntType.int64.lo ∧ w = timestamp t zone) ∧
      ∃ n : Int64Value, n.val = total ∧
        compute .sub v (timestamp t zone) = .ok (interval ⟨n, .nanosecond⟩)) ∧
    (∀ d v, compute .add (date d) (interval iv) = .ok v ↔ IntType.int64.Fits total ∧
      ∃ e : Date, v = date e ∧ e.day.val = d.day.val + ⌊(total : ℚ) / nanosPerDay⌋) ∧
    (∀ d v, compute .sub (date d) (interval iv) = .ok v ↔
      (iv.count.val ≠ IntType.int64.lo ∧ IntType.int64.Fits (-total)) ∧
      ∃ e : Date, v = date e ∧ e.day.val = d.day.val + ⌊((-total : ℤ) : ℚ) / nanosPerDay⌋) ∧
    (∀ t zone, compute .add (interval iv) (timestamp t zone) =
      compute .add (timestamp t zone) (interval iv)) ∧
    ∀ d, compute .add (interval iv) (date d) = compute .add (date d) (interval iv) := by
  have hadd : ∀ t zone v, compute .add (timestamp t zone) (interval iv) = .ok v ↔
      IntType.int64.Fits total ∧
        ∃ u : Timestamp, v = timestamp u zone ∧ u.instant.val = t.instant.val + total := by
    intro t zone v
    simp only [compute_add_timestamp, Result.map_eq_ok_iff, shift_forwards_iff h]
    constructor
    · rintro ⟨u, ⟨hfits, hu⟩, rfl⟩
      exact ⟨hfits, u, rfl, hu⟩
    · rintro ⟨hfits, u, rfl, hu⟩
      exact ⟨u, ⟨hfits, hu⟩, rfl⟩
  refine ⟨hadd, fun t zone v hv => ?_, fun d v => ?_, fun d v => ?_, fun t zone => rfl,
    fun d => rfl⟩
  · obtain ⟨hfits, u, rfl, hu⟩ := (hadd t zone v).mp hv
    refine ⟨fun w => ?_, ⟨total, hfits.1, hfits.2⟩, rfl, compute_sub_timestamps hu⟩
    simp only [compute_sub_timestamp, Result.map_eq_ok_iff, shift_backwards_iff h]
    constructor
    · rintro ⟨x, ⟨hcount, -, hx⟩, rfl⟩
      have hback : x.instant.val = t.instant.val := by omega
      exact ⟨hcount, by rw [Timestamp.eq_of_instant hback]⟩
    · rintro ⟨hcount, rfl⟩
      exact ⟨t, ⟨hcount, fits_neg_length h hfits hcount, by omega⟩, rfl⟩
  · rw [compute_add_date]
    exact map_shift_date_iff fun u => shift_forwards_iff h
  · rw [compute_sub_date]
    exact map_shift_date_iff fun u => (shift_backwards_iff h).trans and_assoc.symm

/-- A nanosecond before the first midnight of 1970 is on the day before it, and one after it is on
the same day. -/
theorem compute_shift_nanosecond :
    compute .add (date ⟨⟨0, by decide, by decide⟩⟩)
        (interval ⟨⟨-1, by decide, by decide⟩, .nanosecond⟩) =
      .ok (date ⟨⟨-1, by decide, by decide⟩⟩) ∧
    compute .sub (date ⟨⟨0, by decide, by decide⟩⟩)
        (interval ⟨⟨-1, by decide, by decide⟩, .nanosecond⟩) =
      .ok (date ⟨⟨0, by decide, by decide⟩⟩) := by
  have hlength : (⟨⟨-1, by decide, by decide⟩, .nanosecond⟩ : Interval).length? nanos? =
      some (-1) := rfl
  obtain ⟨-, -, hadd, hsub, -, -⟩ := compute_shift hlength
  have hbefore : ⌊((-1 : ℤ) : ℚ) / nanosPerDay⌋ = -1 := by
    rw [Rat.floor_intCast_div_natCast]
    rfl
  have hafter : ⌊((-(-1) : ℤ) : ℚ) / nanosPerDay⌋ = 0 := by
    rw [Rat.floor_intCast_div_natCast]
    rfl
  exact ⟨(hadd _ _).mpr ⟨by decide, _, rfl, by rw [hbefore]; rfl⟩,
    (hsub _ _).mpr ⟨⟨by decide, by decide⟩, _, rfl, by rw [hafter]; rfl⟩⟩

end Scalar

end TableQuery
