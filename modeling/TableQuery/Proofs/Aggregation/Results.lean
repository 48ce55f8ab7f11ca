import TableQuery.Proofs.Aggregation.Conforms
import TableQuery.Proofs.Arithmetic.Integers
import TableQuery.Proofs.Scalar.Exact

/-! # Results of aggregates at any time

An aggregate is offered values one by one and stays as it is where it cannot be updated with one
(`AggregateFunction.after`). While the values conform to the type of its input, it stays in a state
of its function that has counted no more than it was offered (`AggregateState.Of`), and its result
conforms to its own type. Only the counts have a type without null, and a count that fits 64 bits is
no null. Only exact sums can refuse a value: all other aggregates take what conforms to their input
(`AggregateFunction.after_conforms`). -/

namespace TableQuery

namespace Scalar

theorem ofCount_of_fits {n : Nat} (h : IntType.int64.Fits n) :
    ∃ v : IntType.Value .int64, v.val = n ∧ ofCount n = .int .int64 v := by
  have hv : IntType.int64.ofInt? n = some ⟨n, h.1, h.2⟩ := Bounded.ofInt?_of_within h
  exact ⟨⟨n, h.1, h.2⟩, rfl, by rw [ofCount, hv]⟩

/-- Counts that fit 64 bits are told apart. -/
theorem ofCount_inj_of_fits {n m : Nat} (hn : IntType.int64.Fits n) (h : ofCount m = ofCount n) :
    m = n := by
  obtain ⟨v, hv, hcount⟩ := ofCount_of_fits hn
  rw [hcount, ofCount] at h
  split at h
  · rename_i hm
    cases h
    rw [Bounded.ofInt?_eq_some_iff, hv] at hm
    exact (Int.ofNat_inj.mp hm).symm
  · cases h

theorem places_ofCount (n : Nat) : (ofCount n).places = 0 := by
  unfold ofCount
  split <;> rfl

end Scalar

namespace AggregateFunction

variable {f : AggregateFunction} {u t : DataType} {v w : Scalar}

/-- Whether the function counts rows or values. -/
def counts : AggregateFunction → Bool
  | countStar | count | countDistinct => true
  | sum | mean | min | max => false

theorem nullable_of_resultType (hf : f.counts = false) (h : f.resultType u = .ok t) :
    t.nullable = true := by
  cases f with
  | countStar | count | countDistinct => cases hf
  | sum =>
    simp only [resultType] at h
    split at h <;> cases h <;> rfl
  | mean =>
    simp only [resultType] at h
    split at h
    · cases h
      rfl
    · split at h <;> cases h
      rfl
  | min | max =>
    simp only [resultType] at h
    split at h <;> cases h
    cases u <;> rfl

/-- The types of which sums are exact. -/
def SumsExactly (u : DataType) : Prop :=
  u.isInteger = true ∨ u.isBoolean = true ∨ u.isDecimal = true ∨ u.isInterval = true

/-- A sum of values that are not added exactly is one of floating point numbers. -/
theorem isFloat_of_sum (h : sum.resultType u = .ok t) (hu : ¬ SumsExactly u) (hnull : u ≠ .null) :
    (∃ w n, u = .base (.float w) n) ∧ t = .float64 := by
  simp only [resultType] at h
  split at h
  · exact absurd rfl hnull
  · exact absurd (.inr (.inl rfl)) hu
  · exact absurd (.inl rfl) hu
  · cases h
    exact ⟨⟨_, _, rfl⟩, rfl⟩
  · exact absurd (.inr (.inr (.inl rfl))) hu
  · exact absurd (.inr (.inr (.inr rfl))) hu
  · cases h

/-- Sums have the places of what is added. -/
theorem places_le_of_sum (h : sum.resultType u = .ok t) (hv : v.Conforms u) (hnull : v ≠ .null)
    (hw : w.Conforms t) : w.places ≤ v.places := by
  simp only [resultType] at h
  split at h <;> cases h
  case h_5 =>
    cases hv with
    | null => exact absurd rfl hnull
    | decimal p n hs =>
      cases hw with
      | null => exact Nat.zero_le _
      | decimal q m hs' => exact (hs'.trans hs.symm).le
  all_goals cases hw <;> exact Nat.zero_le _

/-- A value that is averaged counts as a number. -/
theorem exists_asDouble_of_mean (h : mean.resultType u = .ok t) (hv : v.Conforms u)
    (hnull : v ≠ .null) : ∃ x, (AggregateState.asNumber v).asDouble = .ok x := by
  simp only [resultType] at h
  split at h
  · rename_i hu
    exact absurd (hv.eq_null hu) hnull
  · split at h
    · rename_i hu
      cases hv <;> first | exact ⟨_, rfl⟩ | exact absurd rfl hnull | cases hu
    · cases h

end AggregateFunction

namespace AggregateState

variable {f : AggregateFunction} {u t : DataType} {state state' : AggregateState} {v : Scalar}
  {n m : Nat}

/-! ### States of a function -/

/-- **The states of a function** after a number of values, of which no more are counted. -/
inductive Of : AggregateFunction → Nat → AggregateState → Prop
  | countStar {m n : Nat} : m ≤ n → Of .countStar n (.count m)
  | count {m n : Nat} : m ≤ n → Of .count n (.count m)
  | countDistinct {keys : List Key} {n : Nat} : keys.length ≤ n →
      Of .countDistinct n (.distinct keys)
  | sum (n : Nat) (total : Scalar) : Of .sum n (.sum total)
  | mean (n : Nat) (total : FloatValue) (m : Nat) : Of .mean n (.mean total m)
  | min (n : Nat) (least : Scalar) : Of .min n (.min least)
  | max (n : Nat) (greatest : Scalar) : Of .max n (.max greatest)

/-- Only the count of rows takes nulls. -/
theorem update_of_ne (hf : f ≠ .countStar) (state : AggregateState) (v : Scalar) (t : DataType) :
    state.update f v t = if v.isNull then .ok state else state.add v t := by
  cases f with
  | countStar => exact absurd rfl hf
  | count | countDistinct | sum | mean | min | max => rfl

namespace Of

theorem initial (f : AggregateFunction) : Of f 0 (.initial f) := by
  cases f <;> constructor <;> exact Nat.le_refl 0

/-- A value that is not taken is one more that may be. -/
theorem succ (h : Of f n state) : Of f (n + 1) state := by
  cases h <;> constructor <;> exact Nat.le_succ_of_le ‹_›

theorem add (h : Of f n state) (hf : f ≠ .countStar) (hadd : state.add v t = .ok state') :
    Of f (n + 1) state' := by
  cases h with
  | countStar => exact absurd rfl hf
  | count hm =>
    cases hadd
    exact .count (Nat.succ_le_succ hm)
  | countDistinct hkeys =>
    cases hadd
    refine .countDistinct ?_
    split
    · exact Nat.le_succ_of_le hkeys
    · exact Nat.succ_le_succ hkeys
  | sum | mean =>
    obtain ⟨_, -, rfl⟩ := Result.map_eq_ok_iff.mp hadd
    constructor
  | min | max =>
    cases hadd
    constructor

theorem update (h : Of f n state) (hupdate : state.update f v t = .ok state') :
    Of f (n + 1) state' := by
  by_cases hf : f = .countStar
  · subst hf
    cases h with
    | countStar hm =>
      cases hupdate
      exact .countStar (Nat.succ_le_succ hm)
  · rw [update_of_ne hf] at hupdate
    split at hupdate
    · cases hupdate
      exact h.succ
    · exact h.add hf hupdate

/-- **A null result** of a function whose type is not nullable is a count beyond 64 bits. -/
theorem nullable_of_result (h : Of f n state) (ht : f.resultType u = .ok t)
    (hn : IntType.int64.Fits n) (hnull : state.result = .null) : t.nullable = true := by
  have hcount : ∀ m, m ≤ n → Scalar.ofCount m ≠ .null := by
    intro m hm hnull
    obtain ⟨v, -, hv⟩ := Scalar.ofCount_of_fits (n := m) (hn.of_between (by omega) (by omega))
    rw [hv] at hnull
    cases hnull
  cases h with
  | countStar hm | count hm | countDistinct hm => exact absurd hnull (hcount _ hm)
  | sum | mean | min | max => exact AggregateFunction.nullable_of_resultType rfl ht

/-- **An aggregate refuses** no value that conforms to its input, unless it sums exactly. -/
theorem exists_add_eq_ok (h : Of f n state) (hstate : state.Conforms u t)
    (ht : f.resultType u = .ok t) (hv : v.Conforms u) (hnull : v ≠ .null)
    (hexact : ¬ (f = .sum ∧ AggregateFunction.SumsExactly u)) :
    ∃ state', state.add v t = .ok state' := by
  cases h with
  | countStar | count | countDistinct | min | max => exact ⟨_, rfl⟩
  | sum n total =>
    have hu : u ≠ .null := fun hu => hnull (hv.eq_null (hu ▸ rfl))
    obtain ⟨⟨w, m, rfl⟩, rfl⟩ := AggregateFunction.isFloat_of_sum ht (hexact ⟨rfl, ·⟩) hu
    cases hv with
    | null => exact absurd rfl hnull
    | float x =>
      cases hstate.2 with
      | null | float => exact ⟨_, rfl⟩
  | mean n total m =>
    obtain ⟨x, hx⟩ := AggregateFunction.exists_asDouble_of_mean ht hv hnull
    exact ⟨_, by rw [AggregateState.add, hx]; rfl⟩

theorem exists_update_eq_ok (h : Of f n state) (hstate : state.Conforms u t)
    (ht : f.resultType u = .ok t) (hv : v.Conforms u)
    (hexact : ¬ (f = .sum ∧ AggregateFunction.SumsExactly u)) :
    ∃ state', state.update f v t = .ok state' := by
  by_cases hf : f = .countStar
  · subst hf
    cases h with
    | countStar => exact ⟨_, rfl⟩
  · rw [update_of_ne hf]
    split
    · exact ⟨_, rfl⟩
    · rename_i hnull
      exact h.exists_add_eq_ok hstate ht hv (hnull ∘ Scalar.isNull_iff.mpr) hexact

/-- No result has more places than the values. -/
theorem places_le_of_add (h : Of f n state) (hstate : state.Conforms u t)
    (ht : f.resultType u = .ok t) (hv : v.Conforms u) (hnull : v ≠ .null)
    (hadd : state.add v t = .ok state') {k : Nat} (hk : v.places ≤ k)
    (hresult : state.result.places ≤ k) : state'.result.places ≤ k := by
  have hconforms := add_conforms hstate hv hnull hadd
  cases h with
  | countStar | count | countDistinct =>
    cases hadd
    rw [result, Scalar.places_ofCount]
    exact Nat.zero_le k
  | sum n total =>
    obtain ⟨total', -, rfl⟩ := Result.map_eq_ok_iff.mp hadd
    exact (AggregateFunction.places_le_of_sum ht hv hnull hconforms.2).trans hk
  | mean n total m =>
    obtain ⟨x, -, rfl⟩ := Result.map_eq_ok_iff.mp hadd
    rw [result]
    split <;> exact Nat.zero_le k
  | min n kept | max n kept =>
    cases hadd
    rw [result]
    split
    · exact hk
    · exact hresult

theorem places_le_of_update (h : Of f n state) (hstate : state.Conforms u t)
    (ht : f.resultType u = .ok t) (hv : v.Conforms u) (hupdate : state.update f v t = .ok state')
    {k : Nat} (hk : v.places ≤ k) (hresult : state.result.places ≤ k) :
    state'.result.places ≤ k := by
  by_cases hf : f = .countStar
  · subst hf
    cases h with
    | countStar =>
      cases hupdate
      rw [result, Scalar.places_ofCount]
      exact Nat.zero_le k
  · rw [update_of_ne hf] at hupdate
    split at hupdate
    · cases hupdate
      exact hresult
    · rename_i hnull
      exact h.places_le_of_add hstate ht hv (hnull ∘ Scalar.isNull_iff.mpr) hupdate hk hresult

end Of

/-! ### Values offered one by one -/

/-- The state offered one more value: it stays as it is if it cannot be updated with it. -/
def offer (f : AggregateFunction) (t : DataType) (state : AggregateState) (v : Scalar) :
    AggregateState :=
  (state.update f v t).toOption.getD state

/-- What updates keep is kept by offers. -/
theorem offer_induction {P : AggregateState → Prop} (hsame : P state)
    (hupdate : ∀ state', state.update f v t = .ok state' → P state') : P (offer f t state v) := by
  unfold offer
  cases h : state.update f v t with
  | ok state' => exact hupdate state' h
  | error e => exact hsame

end AggregateState

namespace AggregateFunction

variable {f : AggregateFunction} {u t : DataType} {values : List Scalar}

/-- **The state of an aggregate** that was offered some values. -/
def after (f : AggregateFunction) (t : DataType) (values : List Scalar) : AggregateState :=
  values.foldl (AggregateState.offer f t) (.initial f)

theorem after_concat (f : AggregateFunction) (t : DataType) (values : List Scalar) (v : Scalar) :
    f.after t (values ++ [v]) = AggregateState.offer f t (f.after t values) v := by
  rw [after, List.foldl_append]
  rfl

/-- It is a state of the function, and what it has seen conforms to the types. -/
theorem after_of (ht : f.resultType u = .ok t) (hvalues : ∀ v ∈ values, v.Conforms u) :
    AggregateState.Of f values.length (f.after t values) ∧ (f.after t values).Conforms u t := by
  induction values using List.reverseRecOn with
  | nil => exact ⟨.initial f, AggregateState.initial_conforms ht⟩
  | append_singleton values v ih =>
    obtain ⟨hof, hconforms⟩ := ih fun w hw => hvalues w (List.mem_append_left _ hw)
    rw [after_concat, List.length_append]
    refine AggregateState.offer_induction
      (P := fun s => AggregateState.Of f (values.length + 1) s ∧ s.Conforms u t)
      ⟨hof.succ, hconforms⟩ fun state' h => ?_
    exact ⟨hof.update h,
      AggregateState.update_conforms hconforms (hvalues v (by simp)) h⟩

theorem places_after_le (ht : f.resultType u = .ok t) (hvalues : ∀ v ∈ values, v.Conforms u)
    {k : Nat} (hk : ∀ v ∈ values, v.places ≤ k) : (f.after t values).result.places ≤ k := by
  induction values using List.reverseRecOn with
  | nil => cases f <;> exact Nat.zero_le k
  | append_singleton values v ih =>
    have hvalues' : ∀ w ∈ values, w.Conforms u := fun w hw =>
      hvalues w (List.mem_append_left _ hw)
    have hresult := ih hvalues' fun w hw => hk w (List.mem_append_left _ hw)
    obtain ⟨hof, hconforms⟩ := after_of ht hvalues'
    rw [after_concat]
    exact AggregateState.offer_induction (P := fun s => s.result.places ≤ k) hresult
      fun state' h =>
        hof.places_le_of_update hconforms ht (hvalues v (by simp)) h (hk v (by simp)) hresult

/-- **Aggregates have the results that their types say**: while values are offered that conform to
the type of the input, the result conforms to the type of the aggregate, with no more places than
the values have, and it is null only if that type is nullable, as long as the number of values fits
64 bits. Only a sum of integers, booleans, decimals or intervals can refuse a value. -/
theorem after_conforms (ht : f.resultType u = .ok t) (hvalues : ∀ v ∈ values, v.Conforms u) :
    (f.after t values).result.Conforms t ∧
      (∀ k, (∀ v ∈ values, v.places ≤ k) → (f.after t values).result.places ≤ k) ∧
      (IntType.int64.Fits values.length → (f.after t values).result = .null →
        t.nullable = true) ∧
      ∀ v e, v.Conforms u → (f.after t values).update f v t = .error e →
        f = .sum ∧ SumsExactly u := by
  obtain ⟨hof, hconforms⟩ := after_of ht hvalues
  refine ⟨hconforms.result, fun k => places_after_le ht hvalues, hof.nullable_of_result ht,
    fun v e hv he => ?_⟩
  by_contra hexact
  obtain ⟨state', hstate'⟩ := hof.exists_update_eq_ok hconforms ht hv hexact
  rw [he] at hstate'
  cases hstate'

/-- Decimals with a null among them add up to a decimal of the same scale. The greatest 128-bit
integer with one more digit is refused, and the sum stays. -/
theorem after_conforms_decimals :
    let d (v : Int) : Scalar := .decimal ⟨Bounded.clamp _ _ (by decide) v, 2⟩
    let u : DataType := .base (.decimal 10 2) true
    let t : DataType := .base (.decimal 38 2) true
    let values := [d 125, .null, d 250, d maxInt128]
    sum.resultType u = .ok t ∧ (∀ v ∈ values, v.Conforms u) ∧
      IntType.int64.Fits values.length ∧ (∀ v ∈ values, v.places ≤ 38) ∧
      (sum.after t values).result = d 375 ∧ (d 375).Conforms t ∧ (d 375).places ≤ 38 ∧
      ((sum.after t values).update sum (d maxInt128) t).toOption = none ∧ SumsExactly u := by
  intro d u t values
  have hvalues : ∀ v ∈ values, v.Conforms u := by
    simp only [values, List.forall_mem_cons]
    exact ⟨.decimal _ _ rfl, .null _, .decimal _ _ rfl, .decimal _ _ rfl, nofun⟩
  have hplaces : ∀ v ∈ values, v.places ≤ 38 := by decide
  have hresult : (sum.after t values).result = d 375 := rfl
  have hfits : IntType.int64.Fits values.length := by decide
  obtain ⟨hconforms, hk, hnull, hrefused⟩ := after_conforms (f := sum) (t := t) rfl hvalues
  refine ⟨rfl, hvalues, hfits, hplaces, hresult, hresult ▸ hconforms, hresult ▸ hk 38 hplaces,
    rfl, ?_⟩
  exact (hrefused (d maxInt128) _ (.decimal _ _ rfl) rfl).2

end AggregateFunction

end TableQuery
