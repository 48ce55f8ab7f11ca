import TableQuery.Aggregate
import TableQuery.Proofs.Arithmetic.Integers

/-! # Sums of integers

A sum of an integer type is fed value by value: nulls, booleans, which count as zero and one, and
integers of any type. A value that would bring the sum out of the type's range is refused and leaves
the sum as it was. `RunningSum` keeps the accepted values beside the state, and at any time the
state holds their exact sum (`sum_exact`). -/

namespace TableQuery

namespace Scalar

/-- The values that an integer sum takes. -/
def IsSummand (v : Scalar) : Prop := v = .null ∨ (∃ b, v = boolean b) ∨ ∃ t x, v = int t x

/-- What a value adds to an integer sum. -/
def addend : Scalar → Int
  | boolean b => if b then 1 else 0
  | int _ v => v.val
  | _ => 0

/-- The exact sum of values, whatever its size. -/
def exactSum : List Scalar → Int
  | [] => 0
  | v :: vs => addend v + exactSum vs

theorem exactSum_concat (vs : List Scalar) (v : Scalar) :
    exactSum (vs ++ [v]) = exactSum vs + addend v := by
  induction vs with
  | nil => simp [exactSum]
  | cons u vs ih => rw [List.cons_append, exactSum, exactSum, ih, Int.add_assoc]

theorem exactSum_of_nulls {vs : List Scalar} (h : ∀ v ∈ vs, v = .null) : exactSum vs = 0 := by
  induction vs with
  | nil => rfl
  | cons v vs ih =>
    obtain ⟨rfl, hvs⟩ := List.forall_mem_cons.mp h
    rw [exactSum, ih hvs]
    rfl

/-- A sum of two integers never exceeds 128 bits, so only the type of the result counts. -/
theorem arith_add_int {w t : IntType} (x : w.Value) (y : t.Value) (n : Bool) :
    arith .add (int w x) (int t y) (.base (.int w) n) = ofIntAs w n (x.val + y.val) := by
  have hx := IntType.natAbs_le x
  have hy := IntType.natAbs_le y
  have hwide : ∀ u : IntType, u.hi ≤ 18446744073709551615 := fun u => by cases u <;> decide
  have hw := hwide w
  have ht := hwide t
  have hfits : Int128.Fits (ArithOp.add.onTheWay x.val y.val) := by
    change minInt128 ≤ x.val + y.val ∧ x.val + y.val ≤ maxInt128
    unfold minInt128 maxInt128
    omega
  rw [arith_int (by decide) x y w n (by simp), if_pos hfits]
  rfl

end Scalar

open Scalar

namespace AggregateState

/-- Anything but a null that an integer sum takes counts as an integer. -/
theorem asNumber_of_isSummand {v : Scalar} (h : v.IsSummand) (hnull : v ≠ .null) :
    ∃ (t : IntType) (x : t.Value), asNumber v = int t x ∧ x.val = addend v := by
  obtain rfl | ⟨b, rfl⟩ | ⟨t, x, rfl⟩ := h
  · exact absurd rfl hnull
  · cases b
    · exact ⟨_, _, rfl, rfl⟩
    · exact ⟨_, _, rfl, rfl⟩
  · exact ⟨t, x, rfl, rfl⟩

/-- **The state holds the exact sum** of the accepted values, and null before the first one that is
not null. -/
def HoldsSum (w : IntType) (state : AggregateState) (accepted : List Scalar) : Prop :=
  ((∀ v ∈ accepted, v = .null) ∧ state = .sum .null) ∨
    (∃ v ∈ accepted, v ≠ .null) ∧ ∃ x : w.Value, state = .sum (int w x) ∧ x.val = exactSum accepted

variable {w : IntType} {n : Bool} {state : AggregateState} {accepted : List Scalar} {v : Scalar}

theorem HoldsSum.fits (h : HoldsSum w state accepted) : w.Fits (exactSum accepted) := by
  obtain ⟨hnulls, -⟩ | ⟨-, x, -, hx⟩ := h
  · rw [exactSum_of_nulls hnulls]
    exact ⟨w.lo_nonpos, w.hi_nonneg⟩
  · exact hx ▸ ⟨x.lo_le, x.le_hi⟩

/-- A null is accepted and adds nothing. -/
theorem HoldsSum.concat_null (h : HoldsSum w state accepted) :
    HoldsSum w state (accepted ++ [.null]) := by
  have hsum : exactSum (accepted ++ [.null]) = exactSum accepted :=
    (exactSum_concat _ _).trans (Int.add_zero _)
  obtain ⟨hnulls, hstate⟩ | ⟨⟨u, hu, hne⟩, x, hstate, hx⟩ := h
  · exact .inl ⟨by simpa [or_imp, forall_and] using hnulls, hstate⟩
  · exact .inr ⟨⟨u, by simp [hu], hne⟩, x, hstate, hx.trans hsum.symm⟩

/-- A value that is not null is added as an integer. -/
theorem update_sum_eq {t : DataType} {total : Scalar} (hnull : v ≠ .null) :
    (AggregateState.sum total).update .sum v t =
      (if total.isNull then (asNumber v).cast t
        else arith .add total (asNumber v) t).map .sum := by
  rw [update, if_neg (by simpa using hnull)]
  · rfl
  · exact nofun
  · exact nofun

/-- **One more value is added exactly, or refused** when the sum would not fit. -/
theorem HoldsSum.update_decides (h : HoldsSum w state accepted) (hv : v.IsSummand) :
    (state.update .sum v (.base (.int w) n)).Decides (w.Fits (exactSum accepted + addend v))
      (fun s => HoldsSum w s (accepted ++ [v]))
      (fun e => e = .eval (.integerOutOfRange (exactSum accepted + addend v)
        (.base (.int w) n))) := by
  by_cases hnull : v = .null
  · subst hnull
    have hfits : w.Fits (exactSum accepted + addend .null) := (Int.add_zero _).symm ▸ h.fits
    have hupdate : state.update .sum .null (.base (.int w) n) = .ok state := by
      obtain ⟨-, rfl⟩ | ⟨-, x, rfl, -⟩ := h <;> rfl
    exact .of_ok hupdate h.concat_null hfits
  · obtain ⟨t, y, hnumber, hy⟩ := asNumber_of_isSummand hv hnull
    -- The first value is brought to the type, every later one is added at the type.
    have hchecked : state.update .sum v (.base (.int w) n) =
        (ofIntAs w n (exactSum accepted + addend v)).map .sum := by
      obtain ⟨hnulls, rfl⟩ | ⟨-, x, rfl, hx⟩ := h
      · rw [update_sum_eq hnull, hnumber, exactSum_of_nulls hnulls, Int.zero_add, ← hy]
        rfl
      · rw [update_sum_eq hnull, hnumber, ← hx, ← hy, ← arith_add_int]
        rfl
    rw [hchecked]
    refine (ofIntAs_decides w n _).map fun r hr => ?_
    obtain ⟨x, rfl, hx⟩ := hr
    exact .inr ⟨⟨v, by simp, hnull⟩, x, rfl, hx.trans (exactSum_concat _ _).symm⟩

end AggregateState

/-! ### Running sums -/

/-- A sum with the values that it has accepted so far. -/
structure RunningSum where
  state : AggregateState
  accepted : List Scalar

namespace RunningSum

open AggregateState

def start : RunningSum := ⟨.initial .sum, []⟩

/-- A sum of type `t` that is offered a value, and stays as it is if updating it fails. -/
def offer (t : DataType) (s : RunningSum) (v : Scalar) : RunningSum :=
  match s.state.update .sum v t with
  | .ok state => ⟨state, s.accepted ++ [v]⟩
  | .error _ => s

variable {w : IntType} {n : Bool} {s : RunningSum} {v : Scalar}

theorem offer_of_ok {t : DataType} {state : AggregateState}
    (h : s.state.update .sum v t = .ok state) : s.offer t v = ⟨state, s.accepted ++ [v]⟩ := by
  rw [offer, h]

theorem offer_of_error {t : DataType} {e : Error} (h : s.state.update .sum v t = .error e) :
    s.offer t v = s := by
  rw [offer, h]

theorem holdsSum_start : HoldsSum w start.state start.accepted := .inl ⟨by simp [start], rfl⟩

theorem holdsSum_offer (h : HoldsSum w s.state s.accepted) (hv : v.IsSummand) :
    HoldsSum w (s.offer (.base (.int w) n) v).state (s.offer (.base (.int w) n) v).accepted := by
  have hdecides := h.update_decides (n := n) hv
  cases hupdate : s.state.update .sum v (.base (.int w) n) with
  | ok state =>
    rw [offer_of_ok hupdate]
    exact hdecides.good_of_ok hupdate
  | error e =>
    rw [offer_of_error hupdate]
    exact h

/-- What an offer keeps is kept by all of them. -/
theorem holdsSum_foldl {values : List Scalar} (h : HoldsSum w s.state s.accepted)
    (hvalues : ∀ v ∈ values, v.IsSummand) :
    HoldsSum w (values.foldl (offer (.base (.int w) n)) s).state
      (values.foldl (offer (.base (.int w) n)) s).accepted := by
  induction values generalizing s with
  | nil => exact h
  | cons v values ih =>
    obtain ⟨hv, hvalues⟩ := List.forall_mem_cons.mp hvalues
    exact ih (holdsSum_offer h hv) hvalues

/-- **Integer sums are exact or reported.** After any values, of which some may have been refused,
the result is null if no other value than null was accepted, and else the exact sum of the accepted
ones. One more value is accepted exactly if the exact sum with it is in the range of the type;
otherwise the error tells that sum, and nothing changes. -/
theorem sum_exact (w : IntType) (n : Bool) {values : List Scalar} {v : Scalar}
    (hvalues : ∀ u ∈ values, u.IsSummand) (hv : v.IsSummand) :
    let t : DataType := .base (.int w) n
    let s := values.foldl (offer t) start
    ((∀ u ∈ s.accepted, u = .null) → s.state.result = .null) ∧
      ((∃ u ∈ s.accepted, u ≠ .null) →
        ∃ x : w.Value, s.state.result = int w x ∧ x.val = exactSum s.accepted) ∧
      (s.state.update .sum v t).Decides (w.Fits (exactSum s.accepted + addend v))
        (fun state => s.offer t v = ⟨state, s.accepted ++ [v]⟩)
        (fun e => e = .eval (.integerOutOfRange (exactSum s.accepted + addend v) t) ∧
          s.offer t v = s) := by
  intro t s
  have h : HoldsSum w s.state s.accepted := holdsSum_foldl holdsSum_start hvalues
  have hdecides := h.update_decides (n := n) hv
  refine ⟨fun hnulls => ?_, fun hsome => ?_, fun hfits => ?_, fun hfits => ?_⟩
  · obtain ⟨-, hstate⟩ | ⟨⟨u, hu, hne⟩, -⟩ := h
    · rw [hstate]
      rfl
    · exact absurd (hnulls u hu) hne
  · obtain ⟨hnulls, -⟩ | ⟨-, x, hstate, hx⟩ := h
    · obtain ⟨u, hu, hne⟩ := hsome
      exact absurd (hnulls u hu) hne
    · exact ⟨x, by rw [hstate]; rfl, hx⟩
  · obtain ⟨state, hupdate, -⟩ := hdecides.ok hfits
    exact ⟨state, hupdate, offer_of_ok hupdate⟩
  · obtain ⟨e, hupdate, he⟩ := hdecides.error hfits
    exact ⟨e, hupdate, he, offer_of_error hupdate⟩

/-- A sum that refused the greatest `uint64` is filled up to the greatest `int64`, and then refuses
one. -/
theorem sum_exact_full :
    let t : DataType := .base (.int .int64) true
    let one : Scalar := int .int8 ⟨1, by decide, by decide⟩
    let values : List Scalar := [.null, boolean true,
      int .uint64 ⟨18446744073709551615, by decide, by decide⟩,
      int .int64 ⟨9223372036854775806, by decide, by decide⟩]
    let s := values.foldl (offer t) start
    (∀ u ∈ values, u.IsSummand) ∧ one.IsSummand ∧
      s.state.result = int .int64 ⟨9223372036854775807, by decide, by decide⟩ ∧
      s.state.update .sum one t = .error (.eval (.integerOutOfRange 9223372036854775808 t)) ∧
      s.offer t one = s := by
  intro t one values s
  have hvalues : ∀ u ∈ values, u.IsSummand := by
    simp only [values, List.forall_mem_cons]
    exact ⟨.inl rfl, .inr (.inl ⟨_, rfl⟩), .inr (.inr ⟨_, _, rfl⟩), .inr (.inr ⟨_, _, rfl⟩),
      by simp⟩
  have hone : one.IsSummand := .inr (.inr ⟨_, _, rfl⟩)
  obtain ⟨-, hsum, hnext⟩ := sum_exact .int64 true hvalues hone
  have haccepted : s.accepted = [.null, boolean true,
      int .int64 ⟨9223372036854775806, by decide, by decide⟩] := rfl
  obtain ⟨x, hresult, hx⟩ := hsum ⟨boolean true, by rw [haccepted]; simp, Scalar.noConfusion⟩
  obtain ⟨e, hupdate, he, hsame⟩ := hnext.error (by rw [haccepted]; decide)
  rw [haccepted] at hx he
  rw [Bounded.ext (a := x) (b := ⟨9223372036854775807, by decide, by decide⟩) hx] at hresult
  exact ⟨hvalues, hone, hresult, he ▸ hupdate, hsame⟩

end RunningSum

end TableQuery
