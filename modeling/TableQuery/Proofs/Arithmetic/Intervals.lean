import TableQuery.Proofs.Arithmetic.Integers

/-! # Sums and differences of intervals

Units of fixed length are measured in nanoseconds, calendar units in months, and no unit in both. In
its measure every unit is a whole multiple of all finer ones, so converting an interval to a finer
unit keeps its length (`Scalar.countIn_decides`), although the conversion divides and truncates. The
sum or difference of two intervals has the finer unit of the two, and so it is exact
(`Scalar.compute_interval`). -/

namespace TableQuery

/-! ### Lengths -/

/-- **The length of an interval** in a measure of its unit, whatever its size: in nanoseconds by
`IntervalUnit.nanos?`, in months by `IntervalUnit.months?`. -/
def Interval.length? (measure : IntervalUnit → Option Int) (iv : Interval) : Option Int :=
  (measure iv.unit).map (iv.count.val * ·)

namespace IntervalUnit

/-- The measures of intervals. -/
def IsMeasure (measure : IntervalUnit → Option Int) : Prop := measure = nanos? ∨ measure = months?

variable {measure : IntervalUnit → Option Int} {u w : IntervalUnit} {m n : Int}

/-- **A unit is a multiple of every finer one** in the same measure. -/
theorem dvd_of_rank_le (hmeasure : IsMeasure measure) (hm : measure u = some m)
    (hn : measure w = some n) (h : u.rank ≤ w.rank) : 0 < n ∧ n ∣ m := by
  rcases hmeasure with rfl | rfl
  all_goals
    cases u <;> cases hm
    all_goals
      cases w <;> cases hn
      all_goals first | exact absurd h (by decide) | decide

theorem rank_le_finest_left (u w : IntervalUnit) : u.rank ≤ (u.finest w).rank := by
  unfold finest
  split <;> omega

theorem rank_le_finest_right (u w : IntervalUnit) : w.rank ≤ (u.finest w).rank := by
  unfold finest
  split <;> omega

theorem measure_finest (hm : measure u = some m) (hn : measure w = some n) :
    ∃ l, measure (u.finest w) = some l := by
  unfold finest
  split
  · exact ⟨n, hn⟩
  · exact ⟨m, hm⟩

/-- Calendar units come before the units of fixed length. -/
theorem rank_lt_of_months (hm : u.months? = some m) (hn : w.nanos? = some n) : u.rank < w.rank := by
  cases u <;> cases hm
  all_goals
    cases w <;> cases hn
    all_goals decide

theorem exists_nanos?_of_months?_eq_none (h : w.months? = none) : ∃ n, w.nanos? = some n := by
  cases w <;> first | exact ⟨_, rfl⟩ | cases h

theorem nanos?_eq_none_of_months (hm : u.months? = some m) : u.nanos? = none := by
  cases u <;> cases hm <;> rfl

end IntervalUnit

namespace Scalar

open IntervalUnit

variable {measure : IntervalUnit → Option Int} {m n : Int}

/-! ### Conversion -/

/-- An integer as the count of an interval. -/
def asCount (v : Int) : Result Int64Value :=
  match IntType.int64.ofInt? v with
  | some c => .ok c
  | none => .error (.eval (.tooLarge .interval))

theorem asCount_decides (v : Int) : (asCount v).Decides (IntType.int64.Fits v) (fun c => c.val = v)
    (fun e => e = .eval (.tooLarge .interval)) := by
  refine (Bounded.ofInt?_decides (f := id) (fun b hb => by rw [asCount, IntType.ofInt?, hb]; rfl)
    fun hnone => by rw [asCount, IntType.ofInt?, hnone]).mono ?_
  rintro _ ⟨c, rfl, hc⟩
  exact hc

/-- The length of the interval is divided by that of the other unit. -/
theorem countIn_of_ne {iv : Interval} {u : IntervalUnit} (hmeasure : IsMeasure measure)
    (hm : measure iv.unit = some m) (hn : measure u = some n) (hne : iv.unit ≠ u) :
    countIn u iv = (do
      let total ← asCount (iv.count.val * m)
      asCount (total.val.tdiv n)) := by
  rcases hmeasure with rfl | rfl
  case' inl => simp only [countIn, if_neg hne, hm, hn, asCount]
  case' inr => simp only [countIn, if_neg hne, nanos?_eq_none_of_months hm,
    nanos?_eq_none_of_months hn, hm, hn, Option.getD_some, asCount]
  all_goals
    cases IntType.int64.ofInt? (iv.count.val * m) with
    | none => rfl
    | some total => cases IntType.int64.ofInt? (total.val.tdiv n) <;> rfl

/-- **Converting an interval to a finer unit keeps its length.** The conversion fails only if the
length does not fit 64 bits. -/
theorem countIn_decides {iv : Interval} {u : IntervalUnit} (hmeasure : IsMeasure measure)
    (hm : measure iv.unit = some m) (hn : measure u = some n) (hfine : iv.unit.rank ≤ u.rank) :
    (countIn u iv).Decides (iv.unit = u ∨ IntType.int64.Fits (iv.count.val * m))
      (fun c => c.val * n = iv.count.val * m) (fun e => e = .eval (.tooLarge .interval)) := by
  obtain ⟨hpos, hdvd⟩ := dvd_of_rank_le hmeasure hm hn hfine
  by_cases hunit : iv.unit = u
  · have hmn : n = m := Option.some.inj (hn.symm.trans (hunit ▸ hm))
    exact .of_ok (if_pos hunit) (by rw [hmn]) (.inl hunit)
  · rw [countIn_of_ne hmeasure hm hn hunit]
    refine ((asCount_decides _).bind_ok fun total htotal => ?_).congr (or_iff_right hunit).symm
    have htotal_fits : IntType.int64.Fits total.val := ⟨total.lo_le, total.le_hi⟩
    obtain ⟨hlo, hhi⟩ := tdiv_between total.val hpos
    obtain ⟨c, hc, hcount⟩ := (asCount_decides _).ok (htotal_fits.of_between hlo hhi)
    refine ⟨c, hc, ?_⟩
    -- nothing is cut off, since the length of the unit is a multiple of that of the finer one
    rw [hcount, htotal, Int.tdiv_mul_cancel (Int.dvd_mul_of_dvd_right hdvd)]

theorem length?_of_countIn {k : Interval} {u : IntervalUnit} (hmeasure : IsMeasure measure)
    (hm : measure k.unit = some m) (hn : measure u = some n) (hfine : k.unit.rank ≤ u.rank)
    {c : Int64Value} (hc : countIn u k = .ok c) :
    (⟨c, u⟩ : Interval).length? measure = k.length? measure := by
  have hlength := (countIn_decides hmeasure hm hn hfine).good_of_ok hc
  rw [Interval.length?, Interval.length?, hn, hm, Option.map_some, Option.map_some, hlength]

/-! ### Sums and differences -/

variable {op : ArithOp}

theorem resultType_interval (hop : op = .add ∨ op = .sub) (i j : Interval) :
    op.resultType (interval i).dataType (interval j).dataType =
      .ok (.base (.interval (i.unit.finest j.unit)) false) := by
  rcases hop with rfl | rfl <;> rfl

theorem arith_interval (hop : op = .add ∨ op = .sub) (i j : Interval) (u : IntervalUnit)
    (n : Bool) : arith op (interval i) (interval j) (.base (.interval u) n) = (do
      let x ← countIn u i
      let y ← countIn u j
      match IntType.int64.ofInt? (op.ofInts x.val y.val) with
      | some c => .ok (interval ⟨c, u⟩)
      | none => .error (.eval (.overflow op (interval i) (interval j)))) := by
  rcases hop with rfl | rfl <;> rfl

/-- Counts of one unit are added and subtracted as the lengths are. -/
theorem ofInts_mul (hop : op = .add ∨ op = .sub) (x y l : Int) :
    op.ofInts x y * l = op.ofInts (x * l) (y * l) := by
  rcases hop with rfl | rfl
  · exact Int.add_mul x y l
  · exact Int.sub_mul x y l

/-- The last step: a result is there if an interval of the unit has its length. -/
theorem checked_decides {u : IntervalUnit} {e : Error} {c r l : Int} (hl : measure u = some l)
    (hpos : 0 < l) (hr : c * l = r) :
    Result.Decides (match IntType.int64.ofInt? c with
      | some c => .ok (interval ⟨c, u⟩)
      | none => .error e) (∃ k : Interval, k.unit = u ∧ k.length? measure = some r)
      (fun v => ∃ k : Interval, v = interval k ∧ k.unit = u ∧ k.length? measure = some r)
      (fun e' => e' = e) := by
  have hlength : ∀ b : Int64Value, (⟨b, u⟩ : Interval).length? measure = some r ↔ b.val = c := by
    intro b
    rw [Interval.length?, hl, Option.map_some, Option.some_inj, ← hr]
    exact Int.mul_eq_mul_right_iff (Int.ne_of_gt hpos)
  refine ((Bounded.ofInt?_decides (v := c) (f := fun b => interval ⟨b, u⟩)
    (fun b hb => by rw [IntType.ofInt?, hb])
    fun hnone => by rw [IntType.ofInt?, hnone]).mono ?_).congr ⟨?_, ?_⟩
  · rintro _ ⟨b, rfl, hb⟩
    exact ⟨⟨b, u⟩, rfl, rfl, (hlength b).mpr hb⟩
  · intro hfits
    exact ⟨⟨⟨c, hfits.1, hfits.2⟩, u⟩, rfl, (hlength _).mpr rfl⟩
  · rintro ⟨⟨b, w⟩, rfl, hb⟩
    rw [← (hlength b).mp hb]
    exact ⟨b.lo_le, b.le_hi⟩

/-- A calendar interval does not convert to a unit of fixed length. -/
theorem countIn_of_months {k : Interval} {u : IntervalUnit} (hm : k.unit.months? = some m)
    (hn : u.nanos? = some n) : countIn u k = .error (.eval (.mixedIntervals k u)) := by
  have hne : k.unit ≠ u := by
    rintro rfl
    rw [nanos?_eq_none_of_months hm] at hn
    cases hn
  simp only [countIn, if_neg hne, nanos?_eq_none_of_months hm, hn]

theorem compute_of_months (hop : op = .add ∨ op = .sub) {i j : Interval} {u : IntervalUnit}
    (htype : op.resultType (interval i).dataType (interval j).dataType =
      .ok (.base (.interval u) false))
    (hmixed : i.unit.months?.isSome ≠ j.unit.months?.isSome) :
    ∃ k ∈ [i, j], compute op (interval i) (interval j) = .error (.eval (.mixedIntervals k u)) := by
  have hu : i.unit.finest j.unit = u := by
    have h := (resultType_interval hop i j).symm.trans htype
    cases h
    rfl
  rw [compute_of_resultType htype, arith_interval hop]
  cases hi : i.unit.months? with
  | some m =>
    have hj : j.unit.months? = none := by simpa [hi] using hmixed
    obtain ⟨n, hn⟩ := exists_nanos?_of_months?_eq_none hj
    have hle : i.unit.rank ≤ j.unit.rank := Nat.le_of_lt (rank_lt_of_months hi hn)
    have hfinest : u = j.unit := by rw [← hu, finest, if_pos hle]
    refine ⟨i, by simp, ?_⟩
    rw [countIn_of_months hi (hfinest ▸ hn)]
    rfl
  | none =>
    have hj : j.unit.months? ≠ none := by simpa [hi] using hmixed.symm
    obtain ⟨m, hm⟩ := Option.ne_none_iff_exists'.mp hj
    obtain ⟨n, hn⟩ := exists_nanos?_of_months?_eq_none hi
    have hlt : ¬ i.unit.rank ≤ j.unit.rank := Nat.not_le.mpr (rank_lt_of_months hm hn)
    have hfinest : u = i.unit := by rw [← hu, finest, if_neg hlt]
    refine ⟨j, by simp, ?_⟩
    rw [countIn_of_months hm (hfinest ▸ hn), countIn, if_pos hfinest.symm]
    rfl

/-- **Sums and differences of intervals are exact.** The result has the finer unit of the two. If
both units have a fixed length, or both are calendar units, the length of the result is the sum or
difference of the lengths of the operands; there is a result if the lengths of operands that have to
be converted, and the number of units in the result, fit 64 bits. No conversion cuts anything off.
A calendar unit beside one of fixed length is an error. -/
theorem compute_interval (hop : op = .add ∨ op = .sub) (i j : Interval) : ∃ u : IntervalUnit,
    op.resultType (interval i).dataType (interval j).dataType = .ok (.base (.interval u) false) ∧
      (∀ measure m n, IsMeasure measure → i.length? measure = some m → j.length? measure = some n →
        (compute op (interval i) (interval j)).Decides
          ((i.unit = u ∨ IntType.int64.Fits m) ∧ (j.unit = u ∨ IntType.int64.Fits n) ∧
            ∃ k : Interval, k.unit = u ∧ k.length? measure = some (op.ofInts m n))
          (fun v => ∃ k : Interval, v = interval k ∧ k.unit = u ∧
            k.length? measure = some (op.ofInts m n))
          (fun e => e = .eval (.tooLarge .interval) ∨
            e = .eval (.overflow op (interval i) (interval j))) ∧
        ∀ k ∈ [i, j], ∀ c, countIn u k = .ok c →
          (⟨c, u⟩ : Interval).length? measure = k.length? measure) ∧
      (i.unit.months?.isSome ≠ j.unit.months?.isSome →
        ∃ k ∈ [i, j], compute op (interval i) (interval j) =
          .error (.eval (.mixedIntervals k u))) := by
  have htype := resultType_interval hop i j
  refine ⟨i.unit.finest j.unit, htype, fun measure m n hmeasure hi hj => ?_,
    compute_of_months hop htype⟩
  obtain ⟨p, hp, rfl⟩ := Option.map_eq_some_iff.mp hi
  obtain ⟨q, hq, rfl⟩ := Option.map_eq_some_iff.mp hj
  obtain ⟨l, hl⟩ := measure_finest hp hq
  have hpos := (dvd_of_rank_le hmeasure hp hl (rank_le_finest_left _ _)).1
  have hx := countIn_decides hmeasure hp hl (rank_le_finest_left i.unit j.unit)
  have hy := countIn_decides hmeasure hq hl (rank_le_finest_right i.unit j.unit)
  constructor
  · rw [compute_of_resultType htype, arith_interval hop]
    refine (hx.mono_error fun e he => .inl he).bind fun x hxl => ?_
    refine (hy.mono_error fun e he => .inl he).bind fun y hyl => ?_
    have hlength : op.ofInts x.val y.val * l = op.ofInts (i.count.val * p) (j.count.val * q) := by
      rw [ofInts_mul hop, hxl, hyl]
    exact (checked_decides hl hpos hlength).mono_error fun e he => .inr he
  · intro k hk c hc
    rcases List.mem_pair.mp hk with rfl | rfl
    · exact length?_of_countIn hmeasure hp hl (rank_le_finest_left _ _) hc
    · exact length?_of_countIn hmeasure hq hl (rank_le_finest_right _ _) hc

/-- A week less `9223372036854775807` nanoseconds. -/
theorem compute_interval_week :
    compute .sub (interval ⟨⟨1, by decide, by decide⟩, .week⟩)
        (interval ⟨⟨9223372036854775807, by decide, by decide⟩, .nanosecond⟩) =
      .ok (interval ⟨⟨-9222767236854775807, by decide, by decide⟩, .nanosecond⟩) := by
  obtain ⟨u, htype, hexact, -⟩ := compute_interval (show ArithOp.sub = .add ∨ ArithOp.sub = .sub by
    decide) ⟨⟨1, by decide, by decide⟩, .week⟩
    ⟨⟨9223372036854775807, by decide, by decide⟩, .nanosecond⟩
  rw [resultType_interval (.inr rfl)] at htype
  cases htype
  obtain ⟨v, hv, ⟨c, u⟩, rfl, rfl, hlength⟩ :=
    (hexact nanos? 604800000000000 9223372036854775807 (.inl rfl) rfl rfl).1.ok
      ⟨.inr (by decide), .inl rfl,
        ⟨⟨-9222767236854775807, by decide, by decide⟩, .nanosecond⟩, rfl, rfl⟩
  have hcount : c.val * 1 = -9222767236854775807 := Option.some.inj hlength
  obtain rfl : c = ⟨-9222767236854775807, by decide, by decide⟩ :=
    Bounded.ext ((Int.mul_one _).symm.trans hcount)
  exact hv

end Scalar

end TableQuery
