import Mathlib.Data.List.Induction
import TableQuery.Aggregate
import TableQuery.Proofs.Result
import TableQuery.Proofs.Scalar.Order

/-! # Least and greatest values

The least and the greatest of some values are found in one pass that keeps a value and replaces it
by a strictly better one. On values of one family, nulls apart, the kept value is better than
everything in front of it and no worse than anything behind it (`Scalar.Leads`): one more value is
put behind it, or takes its place and has everything in front. So the pass ends with the first of
the extreme values, and the order of the values only decides which of several equal ones that is
(`AggregateFunction.stateOf_firstExtreme`). -/

namespace TableQuery

/-- The order of a better value to a worse one, for the aggregates that look for the best value. -/
def AggregateFunction.seeks? : AggregateFunction → Option Ordering
  | .min => some .lt
  | .max => some .gt
  | _ => none

namespace Scalar

variable {o : Ordering} {fam : Family} {values : List Scalar} {u v w : Scalar}

/-! ### Preference within a family -/

/-- The order in which the better values come first. -/
def preference (o : Ordering) (u v : Scalar) : Ordering :=
  if o = .gt then ((u.compare? v).getD .eq).swap else (u.compare? v).getD .eq

theorem orderedOn_preference (o : Ordering) (fam : Family) :
    OrderedOn (fun v => v.family? = some fam) (preference o) := by
  unfold preference
  split
  · exact (orderedOn_family fam).swap
  · exact orderedOn_family fam

theorem isNull_of_family? (h : v.family? = some fam) : v.isNull = false := by
  cases v <;> first | rfl | cases h

theorem ne_null_of_family? (h : v.family? = some fam) : v ≠ .null :=
  fun hnull => by cases hnull ▸ h

theorem null_compare? (v : Scalar) : compare? .null v = none := by
  cases v <;> rfl

/-- Values of a family always have an order. -/
theorem exists_compare?_of_family? (hu : u.family? = some fam) (hv : v.family? = some fam) :
    ∃ p, u.compare? v = some p := by
  cases fam <;> cases u <;> cases hu <;> cases v <;> cases hv <;>
    exact ⟨_, by rw [compare?]⟩

section
variable (ho : o = .lt ∨ o = .gt) (hu : u.family? = some fam) (hv : v.family? = some fam)
include ho hu hv

theorem compare?_eq_better_iff : u.compare? v = some o ↔ preference o u v = .lt := by
  obtain ⟨p, hp⟩ := exists_compare?_of_family? hu hv
  rw [preference, hp]
  rcases ho with rfl | rfl <;> cases p <;> decide

theorem compare?_eq_iff_preference : u.compare? v = some .eq ↔ preference o u v = .eq := by
  obtain ⟨p, hp⟩ := exists_compare?_of_family? hu hv
  rw [preference, hp]
  rcases ho with rfl | rfl <;> cases p <;> decide

end

/-! ### Extreme values -/

/-- **A value is extreme** among some values: it is better than every one that is not null, or equal
to it. -/
def Extreme (o : Ordering) (values : List Scalar) (v : Scalar) : Prop :=
  ∀ u ∈ values, u ≠ .null → v.compare? u = some o ∨ v.compare? u = some .eq

/-- **The first of the extreme values.** -/
def FirstExtreme (o : Ordering) (values : List Scalar) (v : Scalar) : Prop :=
  Extreme o values v ∧
    ∃ before after, values = before ++ v :: after ∧ ∀ u ∈ before, ¬ Extreme o values u

/-- The values of a family and nulls. -/
def InFamily (fam : Family) (values : List Scalar) : Prop :=
  ∀ v ∈ values, v = .null ∨ v.family? = some fam

/-- **A value leads** others: it is better than those in front of it and no worse than those behind
it, nulls apart. -/
structure Leads (o : Ordering) (fam : Family) (values : List Scalar) (v : Scalar) : Prop where
  family : v.family? = some fam
  split : ∃ before after, values = before ++ v :: after ∧
    (∀ u ∈ before, u = .null ∨ preference o v u = .lt) ∧
    ∀ u ∈ after, u = .null ∨ (preference o v u).isLE

namespace Leads

theorem mem (h : Leads o fam values v) : v ∈ values := by
  obtain ⟨before, after, rfl, -, -⟩ := h.split
  simp

theorem isLE (h : Leads o fam values v) : ∀ u ∈ values, u = .null ∨ (preference o v u).isLE := by
  obtain ⟨before, after, rfl, hbefore, hafter⟩ := h.split
  intro u hu
  rcases List.mem_append.mp hu with hu | hu
  · exact (hbefore u hu).imp_right fun hlt => by rw [hlt]; rfl
  · rcases List.mem_cons.mp hu with rfl | hu
    · exact .inr (by rw [(orderedOn_preference o fam).self h.family]; rfl)
    · exact hafter u hu

/-- A value that is no better is put behind. -/
theorem concat (h : Leads o fam values v) (hu : u = .null ∨ (preference o v u).isLE) :
    Leads o fam (values ++ [u]) v := by
  obtain ⟨before, after, rfl, hbefore, hafter⟩ := h.split
  refine ⟨h.family, before, after ++ [u], by simp, hbefore, fun w hw => ?_⟩
  rcases List.mem_append.mp hw with hw | hw
  · exact hafter w hw
  · exact List.mem_singleton.mp hw ▸ hu

/-- A value that is better takes the lead. -/
theorem concat_better (h : Leads o fam values v) (hvalues : InFamily fam values)
    (hu : u.family? = some fam) (hlt : preference o u v = .lt) :
    Leads o fam (values ++ [u]) u := by
  refine ⟨hu, values, [], rfl, fun w hw => ?_, nofun⟩
  rcases hvalues w hw with hnull | hw'
  · exact .inl hnull
  · exact (h.isLE w hw).imp_right
      ((orderedOn_preference o fam).lt_of_lt_of_isLE hu h.family hw' hlt)

/-- The leading value is the first of the extreme ones. -/
theorem firstExtreme (h : Leads o fam values v) (ho : o = .lt ∨ o = .gt)
    (hvalues : InFamily fam values) : FirstExtreme o values v := by
  have hmem := h.mem
  refine ⟨fun u hu hnull => ?_, ?_⟩
  · have hfam := (hvalues u hu).resolve_left hnull
    have hle := (h.isLE u hu).resolve_left hnull
    rw [compare?_eq_better_iff ho h.family hfam, compare?_eq_iff_preference ho h.family hfam]
    exact Ordering.isLE_iff_eq_lt_or_eq_eq.mp hle
  · obtain ⟨before, after, hsplit, hbefore, -⟩ := h.split
    refine ⟨before, after, hsplit, fun u hu hextreme => ?_⟩
    have hextreme := hextreme v hmem (ne_null_of_family? h.family)
    rcases hvalues u (hsplit ▸ List.mem_append_left _ hu) with rfl | hfam
    · rw [null_compare?] at hextreme
      exact hextreme.elim nofun nofun
    · have hlt := (hbefore u hu).resolve_left (ne_null_of_family? hfam)
      rw [compare?_eq_better_iff ho hfam h.family, compare?_eq_iff_preference ho hfam h.family,
        (orderedOn_preference o fam).eq_swap hfam h.family, hlt] at hextreme
      exact hextreme.elim nofun nofun

/-- Values that lead the same values are equal in order. -/
theorem compare?_eq {others : List Scalar} (h : Leads o fam values v) (ho : o = .lt ∨ o = .gt)
    (h' : Leads o fam others w) (hperm : others.Perm values) : w.compare? v = some .eq := by
  have hle := (h.isLE w (hperm.subset h'.mem)).resolve_left (ne_null_of_family? h'.family)
  have hge := (h'.isLE v (hperm.symm.subset h.mem)).resolve_left (ne_null_of_family? h.family)
  rw [compare?_eq_iff_preference ho h'.family h.family]
  rw [(orderedOn_preference o fam).eq_swap h.family h'.family] at hle
  revert hle hge
  cases preference o w v <;> decide

end Leads

/-! ### The pass -/

/-- **One more value**: it replaces the kept one if that is missing or worse. -/
def orBetter (o : Ordering) (kept v : Scalar) : Scalar :=
  if v.isNull then kept else if kept.isNull || v.compare? kept = some o then v else kept

/-- **What is kept of some values**: null as long as there are only nulls, then the leading
value. -/
theorem foldl_orBetter (ho : o = .lt ∨ o = .gt) (hvalues : InFamily fam values) :
    ((∀ v ∈ values, v = .null) ∧ values.foldl (orBetter o) .null = .null) ∨
      Leads o fam values (values.foldl (orBetter o) .null) := by
  induction values using List.reverseRecOn with
  | nil => exact .inl ⟨nofun, rfl⟩
  | append_singleton values u ih =>
    have hu := hvalues u (by simp)
    have hvalues : InFamily fam values := fun v hv => hvalues v (List.mem_append_left _ hv)
    have ih := ih hvalues
    rw [List.foldl_append, List.foldl_cons, List.foldl_nil]
    generalize values.foldl (orBetter o) .null = kept at ih
    rcases hu with rfl | hu
    · refine ih.imp (fun ⟨hnulls, hkept⟩ => ⟨?_, hkept⟩) fun hleads => hleads.concat (.inl rfl)
      simpa [or_imp, forall_and] using hnulls
    · refine .inr ?_
      rw [orBetter, if_neg (by rw [isNull_of_family? hu]; decide)]
      rcases ih with ⟨hnulls, rfl⟩ | hleads
      · exact ⟨hu, values, [], rfl, fun v hv => .inl (hnulls v hv), nofun⟩
      · rw [isNull_of_family? hleads.family, Bool.false_or]
        split
        · rename_i hbetter
          exact hleads.concat_better hvalues hu
            ((compare?_eq_better_iff ho hu hleads.family).mp (of_decide_eq_true hbetter))
        · rename_i hbetter
          rw [decide_eq_true_iff, compare?_eq_better_iff ho hu hleads.family] at hbetter
          refine hleads.concat (.inr ?_)
          rw [(orderedOn_preference o fam).eq_swap hleads.family hu]
          revert hbetter
          cases preference o u kept <;> decide

theorem foldl_orBetter_eq_null_iff (ho : o = .lt ∨ o = .gt) (hvalues : InFamily fam values) :
    values.foldl (orBetter o) .null = .null ↔ ∀ v ∈ values, v = .null := by
  rcases foldl_orBetter ho hvalues with ⟨hnulls, hkept⟩ | hleads
  · exact iff_of_true hkept hnulls
  · have hkept := ne_null_of_family? hleads.family
    exact iff_of_false hkept fun hnulls => hkept (hnulls _ hleads.mem)

theorem leads_of_ne_null (ho : o = .lt ∨ o = .gt) (hvalues : InFamily fam values)
    (h : values.foldl (orBetter o) .null ≠ .null) :
    Leads o fam values (values.foldl (orBetter o) .null) :=
  (foldl_orBetter ho hvalues).resolve_left fun hnulls => h hnulls.2

end Scalar

/-! ### Aggregates -/

namespace AggregateFunction

variable {f : AggregateFunction} {o : Ordering} {kept : Scalar}

theorem seeks?_cases (h : f.seeks? = some o) : (f = .min ∧ o = .lt) ∨ (f = .max ∧ o = .gt) := by
  cases f <;> cases h
  · exact .inl ⟨rfl, rfl⟩
  · exact .inr ⟨rfl, rfl⟩

/-- The state in which a value is kept. -/
def keeping (f : AggregateFunction) (kept : Scalar) : AggregateState :=
  if f = .max then .max kept else .min kept

theorem result_keeping (f : AggregateFunction) (kept : Scalar) :
    (f.keeping kept).result = kept := by
  unfold keeping
  split <;> rfl

theorem update_keeping (h : f.seeks? = some o) (v : Scalar) (t : DataType) :
    (f.keeping kept).update f v t = .ok (f.keeping (kept.orBetter o v)) := by
  obtain ⟨rfl, rfl⟩ | ⟨rfl, rfl⟩ := seeks?_cases h <;> cases v <;> rfl

/-- The state after some values, unless updating it with one of them fails. -/
def stateOf (f : AggregateFunction) (t : DataType) (values : List Scalar) : Result AggregateState :=
  values.foldlM (fun state v => state.update f v t) (.initial f)

theorem stateOf_eq (h : f.seeks? = some o) (t : DataType) (values : List Scalar) :
    f.stateOf t values = .ok (f.keeping (values.foldl (Scalar.orBetter o) .null)) := by
  have hinitial : AggregateState.initial f = f.keeping .null := by
    obtain ⟨rfl, rfl⟩ | ⟨rfl, rfl⟩ := seeks?_cases h <;> rfl
  rw [stateOf, hinitial]
  generalize Scalar.null = kept
  induction values generalizing kept with
  | nil => rfl
  | cons v values ih =>
    rw [List.foldlM_cons, update_keeping h, Result.ok_bind, ih, List.foldl_cons]

/-- **The least and the greatest value**: of nulls and values of one family the aggregate gives null
if there are only nulls, and else the first of the extreme ones. The same values in another order
give a value that is equal in order. -/
theorem stateOf_firstExtreme (h : f.seeks? = some o) (fam : Scalar.Family) (t : DataType)
    {values : List Scalar} (hvalues : Scalar.InFamily fam values) :
    ∃ s, f.stateOf t values = .ok s ∧
      (s.result = .null ↔ ∀ v ∈ values, v = .null) ∧
      (s.result ≠ .null → Scalar.FirstExtreme o values s.result) ∧
      ∀ others, others.Perm values → ∃ s', f.stateOf t others = .ok s' ∧
        (s.result = .null → s'.result = .null) ∧
        (s.result ≠ .null → s'.result.compare? s.result = some .eq) := by
  have ho : o = .lt ∨ o = .gt := (seeks?_cases h).imp And.right And.right
  refine ⟨_, stateOf_eq h t values, ?_, fun hresult => ?_, fun others hperm => ?_⟩
  · rw [result_keeping]
    exact Scalar.foldl_orBetter_eq_null_iff ho hvalues
  · rw [result_keeping] at hresult ⊢
    exact (Scalar.leads_of_ne_null ho hvalues hresult).firstExtreme ho hvalues
  · have hothers : Scalar.InFamily fam others := fun v hv => hvalues v (hperm.subset hv)
    have hnulls : others.foldl (Scalar.orBetter o) .null = .null ↔
        values.foldl (Scalar.orBetter o) .null = .null := by
      rw [Scalar.foldl_orBetter_eq_null_iff ho hothers,
        Scalar.foldl_orBetter_eq_null_iff ho hvalues]
      exact forall_congr' fun v => imp_congr_left hperm.mem_iff
    refine ⟨_, stateOf_eq h t others, ?_⟩
    rw [result_keeping, result_keeping]
    exact ⟨hnulls.mpr, fun hresult => (Scalar.leads_of_ne_null ho hvalues hresult).compare?_eq ho
      (Scalar.leads_of_ne_null ho hothers (mt hnulls.mp hresult)) hperm⟩

/-- Of two equal integers of different widths the first one is the least value, and from behind it
is the other one. -/
theorem stateOf_firstExtreme_widths :
    let small (v : Int) : Scalar := .int .int8 (Bounded.clamp _ _ (by decide) v)
    let large (v : Int) : Scalar := .int .int64 (Bounded.clamp _ _ (by decide) v)
    let values : List Scalar := [.null, small 3, large 1, small 1, .null]
    min.seeks? = some .lt ∧ Scalar.InFamily .integer values ∧
      (∃ s, min.stateOf .int64 values = .ok s ∧ s.result = large 1) ∧
      Scalar.FirstExtreme .lt values (large 1) ∧
      (∃ s, min.stateOf .int64 values.reverse = .ok s ∧ s.result = small 1) ∧
      (small 1).compare? (large 1) = some .eq := by
  intro small large values
  have hvalues : Scalar.InFamily .integer values := by
    simp [Scalar.InFamily, values, small, large, Scalar.family?]
  obtain ⟨s, hs, -, hfirst, hperm⟩ := stateOf_firstExtreme (f := min) rfl .integer .int64 hvalues
  obtain ⟨s', hs', -, heq⟩ := hperm values.reverse (List.reverse_perm values)
  obtain rfl : .min (large 1) = s := Except.ok.inj hs
  obtain rfl : .min (small 1) = s' := Except.ok.inj hs'
  exact ⟨rfl, hvalues, ⟨_, hs, rfl⟩, hfirst nofun, ⟨_, hs', rfl⟩, heq nofun⟩

end AggregateFunction

end TableQuery
