import TableQuery.Proofs.Number.Monotone
import TableQuery.Proofs.Scalar.Order
import TableQuery.Proofs.Scalar.Swap

/-! # When comparison is transitive

Two integers compare exactly and all other pairs of numbers as 64-bit values, to which integers are
rounded. Rounding is monotone, so an order may only be lost, and transitivity fails in one way: a
number that is no integer equals two different integers (`Scalar.Merges`). Without such a number at
any place, comparable values are in one order (`Scalar.composes_compare?`), lists by induction on
their elements. A set of such values and nulls is totally ordered under every sort key
(`SortKey.orderedOn_order_of_sortable`), and so are rows under several. -/

namespace TableQuery

/-! ### Orders of two steps -/

/-- **The order of two steps** `o` and `p` in a row may be `q`: a step between equals changes
nothing, and two equal steps come to one of the same direction. -/
def Composes (o p q : Ordering) : Prop := (o = .eq → q = p) ∧ (p = .eq → q = o) ∧ (o = p → q = o)

instance (o p q : Ordering) : Decidable (Composes o p q) := inferInstanceAs (Decidable (_ ∧ _))

namespace Composes

variable {o p q e : Ordering}

theorem isLE (h : Composes o p q) (ho : o.isLE) (hp : p.isLE) : q.isLE := by
  obtain ⟨hfirst, hsecond, hsame⟩ := h
  cases o with
  | gt => cases ho
  | eq => rw [hfirst rfl]; exact hp
  | lt =>
    cases p with
    | gt => cases hp
    | eq => rw [hsecond rfl]; rfl
    | lt => rw [hsame rfl]; rfl

theorem of_isLE_trans {α : Type} (cmp : α → α → Ordering) [Std.TransCmp cmp] (a b c : α) :
    Composes (cmp a b) (cmp b c) (cmp a c) := by
  refine ⟨Std.TransCmp.congr_left, fun h => (Std.TransCmp.congr_right h).symm, fun h => ?_⟩
  cases ho : cmp a b with
  | lt => exact Std.TransCmp.lt_trans ho (h ▸ ho)
  | eq => exact Std.TransCmp.eq_trans ho (h ▸ ho)
  | gt => exact Std.TransCmp.gt_trans ho (h ▸ ho)

/-- The steps of three values may start from each of them. -/
theorem rotate_iff : Composes p q.swap o.swap ↔ Composes o p q := by
  cases o <;> cases p <;> cases q <;> decide

/-- A pair that is found equal may have any order, if the third value is not equal to it. -/
theorem of_first (h : Composes .eq p q) (hp : p ≠ .eq) : Composes o p q := by
  rw [h.1 rfl]
  exact ⟨fun _ => rfl, fun h => absurd h hp, fun h => h.symm⟩

theorem of_second (h : Composes o .eq q) (ho : o ≠ .eq) : Composes o p q := by
  rw [h.2.1 rfl]
  exact ⟨fun h => absurd h ho, fun _ => rfl, fun _ => rfl⟩

end Composes

theorem OrderedOn.composes {α : Type} {S : α → Prop} {order : α → α → Ordering} {a b c : α}
    (h : OrderedOn S order) (ha : S a) (hb : S b) (hc : S c) :
    Composes (order a b) (order b c) (order a c) := by
  obtain ⟨cmp, hcmp, horder⟩ := h
  rw [horder a b ha hb, horder b c hb hc, horder a c ha hc]
  exact .of_isLE_trans cmp a b c

namespace Scalar

/-! ### Numbers -/

/-- **The value merges two integers**: it is none itself, and it compares as equal to both of them
though they differ. -/
def Merges (c a b : Scalar) : Prop :=
  a.int?.isSome ∧ b.int?.isSome ∧ a.int? ≠ b.int? ∧ c.int? = none ∧
    a.compare? c = some .eq ∧ b.compare? c = some .eq

instance (c a b : Scalar) : Decidable (Merges c a b) := inferInstanceAs (Decidable (_ ∧ _))

/-- None of three values merges the other two. -/
def Unmerging (a b c : Scalar) : Prop := ¬ a.Merges b c ∧ ¬ b.Merges a c ∧ ¬ c.Merges a b

theorem double?_of_int {a : Scalar} {m : Int} (h : a.int? = some m) :
    a.double? = some (double.ofInt m) := by
  cases a <;> cases h
  rfl

theorem exists_double?_of_number {a : Scalar} (h : a.kind = .number) :
    ∃ x, a.double? = some x := by
  cases a <;> first | cases h; done | exact ⟨_, rfl⟩

theorem kind_of_double? {a : Scalar} {x : FloatValue} (h : a.double? = some x) :
    a.kind = .number := by
  cases a <;> first | rfl | cases h

/-- The 64-bit forms of two numbers that compare are in their order, or they are two integers of one
form. -/
theorem order_of_compare? {a b : Scalar} {x y : FloatValue} {o : Ordering}
    (hx : a.double? = some x) (hy : b.double? = some y) (h : a.compare? b = some o) :
    FloatValue.order x y = o ∨
      FloatValue.order x y = .eq ∧ a.int?.isSome ∧ b.int?.isSome := by
  by_cases hint : a.int? = none ∨ b.int? = none
  · rw [compare?_of_number (kind_of_double? hx) (kind_of_double? hy) hint, hx, hy,
      Option.bind_some, Option.bind_some, FloatValue.compare?_eq_some_iff] at h
    exact .inl h.2.2
  · obtain ⟨ha, hb⟩ := not_or.mp hint
    obtain ⟨m, hm⟩ := Option.ne_none_iff_exists'.mp ha
    obtain ⟨n, hn⟩ := Option.ne_none_iff_exists'.mp hb
    rw [compare?_of_int hm hn, Option.some_inj] at h
    rw [double?_of_int hm, Option.some_inj] at hx
    rw [double?_of_int hn, Option.some_inj] at hy
    rw [← hx, ← hy, ← h, hm, hn]
    exact (double.order_ofInt m n).imp_right fun heq => ⟨heq, rfl, rfl⟩

theorem Merges.symm {a b c : Scalar} (h : c.Merges a b) : c.Merges b a :=
  ⟨h.2.1, h.1, h.2.2.1.symm, h.2.2.2.1, h.2.2.2.2.2, h.2.2.2.2.1⟩

/-- Two integers that are equal to one number are equal unless it merges them. -/
theorem eq_of_not_merges {a b c : Scalar} {o : Ordering} (h : ¬ c.Merges a b)
    (ha : a.int?.isSome) (hb : b.int?.isSome) (hc : ¬ c.int?.isSome)
    (hac : a.compare? c = some .eq) (hbc : b.compare? c = some .eq)
    (hab : a.compare? b = some o) : o = .eq := by
  obtain ⟨m, hm⟩ := Option.isSome_iff_exists.mp ha
  obtain ⟨n, hn⟩ := Option.isSome_iff_exists.mp hb
  have heq : m = n := by
    refine Decidable.not_not.mp fun hne => h ⟨ha, hb, ?_, by simpa using hc, hac, hbc⟩
    simpa [hm, hn] using hne
  rw [compare?_of_int hm hn, Option.some_inj] at hab
  rw [← hab, heq]
  exact Std.ReflOrd.compare_self

/-- Two integers of one 64-bit form and another number: the order of the integers, lost in the form,
matters only if both are equal to the number. -/
theorem composes_of_merged {a b c : Scalar} {o p q : Ordering} (h : ¬ c.Merges a b)
    (ha : a.int?.isSome) (hb : b.int?.isSome) (hc : ¬ c.int?.isSome)
    (hab : a.compare? b = some o) (hbc : b.compare? c = some p) (hac : a.compare? c = some q)
    (hform : Composes .eq p q) : Composes o p q := by
  by_cases hp : p = .eq
  · subst hp
    obtain rfl := hform.1 rfl
    obtain rfl := eq_of_not_merges h ha hb hc hac hbc hab
    exact hform
  · exact hform.of_first hp

/-- **Three numbers** of which none merges the others compare transitively. -/
theorem composes_of_number {a b c : Scalar} {o p q : Ordering} (ha : a.kind = .number)
    (hb : b.kind = .number) (hc : c.kind = .number) (h : Unmerging a b c)
    (hab : a.compare? b = some o) (hbc : b.compare? c = some p) (hac : a.compare? c = some q) :
    Composes o p q := by
  obtain ⟨x, hx⟩ := exists_double?_of_number ha
  obtain ⟨y, hy⟩ := exists_double?_of_number hb
  obtain ⟨z, hz⟩ := exists_double?_of_number hc
  have hform := Composes.of_isLE_trans FloatValue.order x y z
  obtain ⟨hma, hmb, hmc⟩ := h
  by_cases hints : a.int?.isSome ∧ b.int?.isSome ∧ c.int?.isSome
  · obtain ⟨⟨m, hm⟩, ⟨n, hn⟩, ⟨k, hk⟩⟩ := hints.imp Option.isSome_iff_exists.mp
      (And.imp Option.isSome_iff_exists.mp Option.isSome_iff_exists.mp)
    rw [compare?_of_int hm hn, Option.some_inj] at hab
    rw [compare?_of_int hn hk, Option.some_inj] at hbc
    rw [compare?_of_int hm hk, Option.some_inj] at hac
    rw [← hab, ← hbc, ← hac]
    exact .of_isLE_trans _ m n k
  have hba : b.compare? a = some o.swap := by rw [compare?_swap, hab, Option.map_some]
  have hcb : c.compare? b = some p.swap := by rw [compare?_swap, hbc, Option.map_some]
  have hca : c.compare? a = some q.swap := by rw [compare?_swap, hac, Option.map_some]
  -- Of the three pairs, one at most is of integers, and its order may be lost in the forms.
  rcases order_of_compare? hx hy hab with hxy | ⟨hxy, hia, hib⟩ <;>
    rcases order_of_compare? hy hz hbc with hyz | ⟨hyz, hib', hic⟩ <;>
    rcases order_of_compare? hx hz hac with hxz | ⟨hxz, hia', hic'⟩ <;>
    rw [hxy, hyz, hxz] at hform
  · exact hform
  · rw [← Composes.rotate_iff, ← Composes.rotate_iff, Ordering.swap_swap] at hform ⊢
    exact composes_of_merged (mt Merges.symm hmb) hic' hia' (fun hi => hints ⟨hia', hi, hic'⟩)
      hca hab hcb hform
  · rw [← Composes.rotate_iff] at hform ⊢
    exact composes_of_merged hma hib' hic (fun hi => hints ⟨hi, hib', hic⟩) hbc hca hba hform
  · exact absurd ⟨hia', hib', hic⟩ hints
  · exact composes_of_merged hmc hia hib (fun hi => hints ⟨hia, hib, hi⟩) hab hbc hac hform
  · exact absurd ⟨hia, hib, hic'⟩ hints
  · exact absurd ⟨hia, hib, hic⟩ hints
  · exact absurd ⟨hia, hib, hic⟩ hints

/-! ### Other values that are no lists -/

theorem composes_of_family {a b c : Scalar} {o p q : Ordering} (f : Family)
    (ha : a.family? = some f) (hb : b.family? = some f) (hc : c.family? = some f)
    (hab : a.compare? b = some o) (hbc : b.compare? c = some p) (hac : a.compare? c = some q) :
    Composes o p q := by
  have h := (orderedOn_family f).composes ha hb hc
  rwa [hab, hbc, hac] at h

theorem composes_of_interval {x y z : Interval} {o p q : Ordering}
    (hab : (interval x).compare? (interval y) = some o)
    (hbc : (interval y).compare? (interval z) = some p)
    (hac : (interval x).compare? (interval z) = some q) : Composes o p q := by
  rw [compare?] at hab hbc hac
  obtain ⟨l, hl, m, hm, hab⟩ := by simpa [Option.bind_eq_some_iff] using hab
  obtain ⟨m', hm', n, hn, hbc⟩ := by simpa [Option.bind_eq_some_iff] using hbc
  obtain ⟨l', hl', n', hn', hac⟩ := by simpa [Option.bind_eq_some_iff] using hac
  obtain rfl := Option.some.inj (hl.symm.trans hl')
  obtain rfl := Option.some.inj (hm.symm.trans hm')
  obtain rfl := Option.some.inj (hn.symm.trans hn')
  rw [← hab, ← hbc, ← hac]
  exact .of_isLE_trans _ l.val m.val n.val

/-- Values that are no lists: those of one kind are numbers, of one family, or intervals. -/
theorem composes_of_kind_ne_list {a b c : Scalar} {o p q : Ordering} (ha : a.kind ≠ .list)
    (h : Unmerging a b c) (hab : a.compare? b = some o) (hbc : b.compare? c = some p)
    (hac : a.compare? c = some q) : Composes o p q := by
  have hb := kind_eq_of_compare? hab
  have hc := kind_eq_of_compare? hac
  cases a with
  | int t v | float t v | decimal d => exact composes_of_number rfl hb.symm hc.symm h hab hbc hac
  | list xs => exact absurd rfl ha
  | null | struct fs =>
    cases b <;> cases hb
    simp [compare?, double?] at hab
  | interval x =>
    cases b <;> cases hb
    cases c <;> cases hc
    exact composes_of_interval hab hbc hac
  | boolean x =>
    cases b <;> cases hb
    cases c <;> cases hc
    exact composes_of_family .boolean rfl rfl rfl hab hbc hac
  | utf8 x =>
    cases b <;> cases hb
    cases c <;> cases hc
    exact composes_of_family .text rfl rfl rfl hab hbc hac
  | binary x =>
    cases b <;> cases hb
    cases c <;> cases hc
    exact composes_of_family .bytes rfl rfl rfl hab hbc hac
  | date x =>
    cases b <;> cases hb
    cases c <;> cases hc
    exact composes_of_family .date rfl rfl rfl hab hbc hac
  | time x =>
    cases b <;> cases hb
    cases c <;> cases hc
    exact composes_of_family .time rfl rfl rfl hab hbc hac
  | timestamp x zone =>
    cases b <;> cases hb
    cases c <;> cases hc
    exact composes_of_family .timestamp rfl rfl rfl hab hbc hac

/-! ### All values -/

mutual

/-- **No number among three values merges two others**, at any place of nested lists that all three
have. -/
def Unmerged : Scalar → Scalar → Scalar → Prop
  | .list a, .list b, .list c => UnmergedAll a b c
  | a, b, c => Unmerging a b c

def UnmergedAll : List Scalar → List Scalar → List Scalar → Prop
  | a :: r, b :: s, c :: t => Unmerged a b c ∧ UnmergedAll r s t
  | _, _, _ => True

end

/-- The heads of lists that compare do, and decide their order unless they are equal. -/
theorem exists_compare?_heads {x y : Scalar} {r s : List Scalar} {o : Ordering}
    (h : compareAll? (x :: r) (y :: s) = some o) :
    ∃ e, x.compare? y = some e ∧ (o = e ∨ e = .eq) := by
  rw [compareAll?] at h
  cases he : x.compare? y with
  | none =>
    rw [he] at h
    cases h
  | some e =>
    rw [he] at h
    cases e <;> simp_all

theorem compareAll?_tails {x y : Scalar} {r s : List Scalar} {o : Ordering}
    (h : compareAll? (x :: r) (y :: s) = some o) (he : x.compare? y = some .eq) :
    compareAll? r s = some o := by
  rw [compareAll?, he] at h
  exact h

end Scalar

/-- Equal heads leave the order to the tails, others decide it. -/
theorem Composes.of_heads {o p q o' p' q' : Ordering} (h : Composes o p q)
    (ho : o' = o ∨ o = .eq) (hp : p' = p ∨ p = .eq) (hq : q' = q ∨ q = .eq)
    (htails : o = .eq → p = .eq → q = .eq → Composes o' p' q') : Composes o' p' q' := by
  by_cases ho0 : o = .eq <;> by_cases hp0 : p = .eq
  · subst ho0 hp0
    exact htails rfl rfl (h.1 rfl)
  · subst ho0
    obtain rfl := h.1 rfl
    rw [hp.resolve_right hp0, hq.resolve_right hp0]
    exact h.of_first hp0
  · subst hp0
    obtain rfl := h.2.1 rfl
    rw [ho.resolve_right ho0, hq.resolve_right ho0]
    exact h.of_second ho0
  · rw [ho.resolve_right ho0, hp.resolve_right hp0]
    refine ⟨fun h => absurd h ho0, fun h => absurd h hp0, fun hop => ?_⟩
    obtain rfl := h.2.2 hop
    exact hq.resolve_right ho0

namespace Scalar

mutual

/-- **Comparison is transitive** between values that compare, if no number merges two others. -/
theorem composes_compare? : ∀ {a b c : Scalar} {o p q : Ordering}, Unmerged a b c →
    a.compare? b = some o → b.compare? c = some p → a.compare? c = some q → Composes o p q
  | .list xs, b, c, o, p, q, h, hab, hbc, hac => by
    have hb := kind_eq_of_compare? hab
    have hc := kind_eq_of_compare? hac
    cases b <;> cases hb
    cases c <;> cases hc
    rw [compare?] at hab hbc hac
    exact composes_compareAll? h hab hbc hac
  | .null, _, _, _, _, _, h, hab, hbc, hac | .boolean _, _, _, _, _, _, h, hab, hbc, hac
  | .int _ _, _, _, _, _, _, h, hab, hbc, hac | .float _ _, _, _, _, _, _, h, hab, hbc, hac
  | .decimal _, _, _, _, _, _, h, hab, hbc, hac | .utf8 _, _, _, _, _, _, h, hab, hbc, hac
  | .binary _, _, _, _, _, _, h, hab, hbc, hac | .date _, _, _, _, _, _, h, hab, hbc, hac
  | .time _, _, _, _, _, _, h, hab, hbc, hac | .timestamp _ _, _, _, _, _, _, h, hab, hbc, hac
  | .interval _, _, _, _, _, _, h, hab, hbc, hac | .struct _, _, _, _, _, _, h, hab, hbc, hac =>
    composes_of_kind_ne_list (by simp [kind]) h hab hbc hac

theorem composes_compareAll? : ∀ {xs ys zs : List Scalar} {o p q : Ordering},
    UnmergedAll xs ys zs → compareAll? xs ys = some o → compareAll? ys zs = some p →
    compareAll? xs zs = some q → Composes o p q
  | [], [], zs, o, p, q, _, hab, hbc, hac => by
    cases hab
    obtain rfl := Option.some.inj (hbc.symm.trans hac)
    cases p <;> decide
  | [], _ :: _, [], o, p, q, _, hab, hbc, hac => by
    cases hab
    cases hbc
    cases hac
    decide
  | [], _ :: _, _ :: _, o, p, q, _, hab, _, hac => by
    cases hab
    cases hac
    cases p <;> decide
  | _ :: _, [], [], o, p, q, _, hab, hbc, hac => by
    cases hab
    cases hbc
    cases hac
    decide
  | _ :: _, [], _ :: _, o, p, q, _, hab, hbc, _ => by
    cases hab
    cases hbc
    cases q <;> decide
  | _ :: _, _ :: _, [], o, p, q, _, _, hbc, hac => by
    cases hbc
    cases hac
    cases o <;> decide
  | x :: r, y :: s, z :: t, o, p, q, h, hab, hbc, hac => by
    obtain ⟨e, he, ho⟩ := exists_compare?_heads hab
    obtain ⟨f, hf, hp⟩ := exists_compare?_heads hbc
    obtain ⟨g, hg, hq⟩ := exists_compare?_heads hac
    refine (composes_compare? h.1 he hf hg).of_heads ho hp hq ?_
    rintro rfl rfl rfl
    exact composes_compareAll? h.2 (compareAll?_tails hab he) (compareAll?_tails hbc hf)
      (compareAll?_tails hac hg)

end

/-! ### Sets of values -/

/-- **Values that can be sorted**: those other than nulls compare, and none merges two others. -/
structure Sortable (S : Scalar → Prop) : Prop where
  comparable : ∀ a b, S a → S b → a ≠ b → a ≠ .null → b ≠ .null → (a.compare? b).isSome
  unmerged : ∀ a b c, S a → S b → S c → a.Unmerged b c

theorem compare?_self_getD (a : Scalar) : (a.compare? a).getD .eq = .eq := by
  have h := compare?_swap a a
  cases ho : a.compare? a with
  | none => rfl
  | some o =>
    rw [ho] at h
    cases o <;> first | rfl | cases h

/-- Values that can be sorted are in one order, nulls apart. -/
theorem Sortable.orderedOn {S : Scalar → Prop} (h : Sortable S) :
    OrderedOn (fun v => S v ∧ v ≠ .null) fun a b => (a.compare? b).getD .eq := by
  refine .of_laws (fun a b _ _ => ?_) fun a b c ⟨ha, han⟩ ⟨hb, hbn⟩ ⟨hc, hcn⟩ hab hbc => ?_
  · rw [compare?_swap b a]
    cases b.compare? a <;> rfl
  · by_cases hab' : a = b
    · rwa [hab']
    · by_cases hbc' : b = c
      · rwa [← hbc']
      · by_cases hac' : a = c
        · rw [hac', compare?_self_getD]
          rfl
        · obtain ⟨o, ho⟩ := Option.isSome_iff_exists.mp (h.comparable a b ha hb hab' han hbn)
          obtain ⟨p, hp⟩ := Option.isSome_iff_exists.mp (h.comparable b c hb hc hbc' hbn hcn)
          obtain ⟨q, hq⟩ := Option.isSome_iff_exists.mp (h.comparable a c ha hc hac' han hcn)
          rw [ho] at hab
          rw [hp] at hbc
          rw [hq]
          exact (composes_compare? (h.unmerged a b c ha hb hc) ho hp hq).isLE hab hbc

end Scalar

/-! ### Sorting -/

namespace SortKey

variable {α : Type}

/-- **Values that can be sorted are ordered under every key**, nulls included. -/
theorem orderedOn_order_of_sortable (k : SortKey α) {S : Scalar → Prop}
    (h : Scalar.Sortable S) : OrderedOn S k.order := by
  refine (k.orderedOn_order_of (fun v hv => ?_) h.orderedOn).mono fun v hv => ?_
  · rw [Bool.eq_false_iff, Ne, Scalar.isNull_iff]
    exact hv.2
  · by_cases hn : v = .null
    · exact .inl hn
    · exact .inr ⟨hv, hn⟩

/-- Rows of key values, by induction on the keys. -/
theorem orderedOn_orderAll_of_sortable : ∀ (keys : List (SortKey α)) {Ss : List (Scalar → Prop)},
    (∀ S ∈ Ss, Scalar.Sortable S) →
      OrderedOn (List.Forall₂ (fun S v => S v) Ss) (orderAll keys)
  | [], _, _ => OrderedOn.const_eq.congr fun _ _ _ _ => by rw [orderAll]; simp
  | k :: keys, [], _ => OrderedOn.const_eq.congr fun _ _ ha hb => by
    cases ha
    cases hb
    rfl
  | k :: keys, S :: Ss, h => by
    obtain ⟨hS, hSs⟩ := List.forall_mem_cons.mp h
    have hhead := (k.orderedOn_order_of_sortable hS).comap (fun vs : List Scalar => vs.headD .null)
      (S := List.Forall₂ (fun S v => S v) (S :: Ss)) fun vs hvs => by
        cases hvs with
        | cons hv _ => exact hv
    have htail := (orderedOn_orderAll_of_sortable keys hSs).comap List.tail
      (S := List.Forall₂ (fun S v => S v) (S :: Ss)) fun vs hvs => by
        cases hvs with
        | cons _ hr => exact hr
    refine (hhead.lex htail).congr fun as bs ha hb => ?_
    cases ha
    cases hb
    rfl

end SortKey

namespace Scalar

/-- Sorting values is sorting them under an ascending key with nulls last. -/
theorem sortOrder_eq_order (a b : Scalar) :
    a.sortOrder b = (SortKey.mk () false false).order a b := by
  cases a <;> cases b <;> rfl

theorem isNull_of_compare? {a b : Scalar} {o : Ordering} (h : a.compare? b = some o) :
    a.isNull = false := by
  cases a with
  | null => cases b <;> simp [compare?, double?] at h
  | _ => rfl

theorem sortOrder_of_compare? {a b : Scalar} {o : Ordering} (h : a.compare? b = some o) :
    a.sortOrder b = o := by
  have hswap : b.compare? a = some o.swap := by rw [compare?_swap, h, Option.map_some]
  rw [sortOrder_eq_order, SortKey.order, isNull_of_compare? h, isNull_of_compare? hswap, h]
  rfl

/-- Integers that a value merges are in no order with it. -/
theorem Merges.not_orderedOn {a b c : Scalar} {S : Scalar → Prop} (h : c.Merges a b) (ha : S a)
    (hb : S b) (hc : S c) : ¬ OrderedOn S sortOrder := by
  intro horder
  obtain ⟨hia, hib, hne, -, hac, hbc⟩ := h
  obtain ⟨m, hm⟩ := Option.isSome_iff_exists.mp hia
  obtain ⟨n, hn⟩ := Option.isSome_iff_exists.mp hib
  have hcompose := horder.composes ha hc hb
  rw [sortOrder_of_compare? hac, sortOrder_of_compare? (compare?_eq_symm hbc),
    sortOrder_of_compare? (compare?_of_int hm hn)] at hcompose
  have heq : m = n := Std.LawfulEqOrd.eq_of_compare (hcompose.1 rfl)
  exact hne (by rw [hm, hn, heq])

/-- **A total order of values**: comparison is transitive between any three values of which none
merges two others. So values that can be sorted, and their nulls, are totally ordered for sorting,
alone or as the key values of rows, and the sort puts no value before a smaller one. Values that
hold merged integers are in no such order. -/
theorem order_total (S : Scalar → Prop) (a b c : Scalar) :
    (∀ o p q, a.Unmerged b c → a.compare? b = some o → b.compare? c = some p →
      a.compare? c = some q → o.isLE → p.isLE → q.isLE) ∧
    (Sortable S → OrderedOn S sortOrder ∧
      ∀ l : List Scalar, (∀ v ∈ l, S v) → (sort l).Pairwise fun a b => (a.sortOrder b).isLE) ∧
    (∀ (Ss : List (Scalar → Prop)) (keys : List (SortKey RowExpr)), (∀ S ∈ Ss, Sortable S) →
      OrderedOn (List.Forall₂ (fun S v => S v) Ss) (SortKey.orderAll keys)) ∧
    (S a → S b → S c → c.Merges a b → ¬ OrderedOn S sortOrder) := by
  refine ⟨fun o p q h hab hbc hac => (composes_compare? h hab hbc hac).isLE, fun h => ?_,
    fun Ss keys h => SortKey.orderedOn_orderAll_of_sortable keys h,
    fun ha hb hc h => h.not_orderedOn ha hb hc⟩
  have horder : OrderedOn _ sortOrder :=
    (SortKey.orderedOn_order_of_sortable _ h).congr fun a b _ _ => sortOrder_eq_order a b
  exact ⟨horder, fun l hl => horder.pairwise_isLE_mergeSort hl⟩

/-- The integer `1`, the float `1.5` and the decimal `2.00`, also with nulls among them; all values
together are in no order. -/
theorem order_total_mixed :
    let one : Scalar := .int .int8 ⟨1, by decide, by decide⟩
    let more : Scalar := .float .float64 0x3FF8000000000000
    let two : Scalar := .decimal ⟨⟨200, by decide, by decide⟩, 2⟩
    (∀ q, one.compare? two = some q → q.isLE) ∧
      ((sort [more, .null, one]).Pairwise fun a b => (a.sortOrder b).isLE) ∧
      OrderedOn (List.Forall₂ (fun S v => S v) [(· = one)])
        (SortKey.orderAll [⟨RowExpr.literal one, true, true⟩]) ∧
      ¬ OrderedOn (fun _ => True) sortOrder := by
  intro one more two
  have all := order_total fun _ => True
  refine ⟨fun q hq => ?_, ?_, ?_, ?_⟩
  · exact (all one more two).1 .lt .lt q ⟨by decide +kernel, by decide +kernel, by decide +kernel⟩
      (by decide +kernel) (by decide +kernel) hq rfl rfl
  · have hsortable : Sortable fun v => v = one ∨ v = more ∨ v = .null := by
      constructor
      · rintro a b (rfl | rfl | rfl) (rfl | rfl | rfl) hab ha hb <;>
          first
          | exact absurd rfl hab
          | exact absurd rfl ha
          | exact absurd rfl hb
          | decide +kernel
      · rintro a b c (rfl | rfl | rfl) (rfl | rfl | rfl) (rfl | rfl | rfl) <;>
          exact ⟨by decide +kernel, by decide +kernel, by decide +kernel⟩
    refine ((order_total _ one more two).2.1 hsortable).2 _ fun v hv => ?_
    simp only [List.mem_cons, List.not_mem_nil, or_false] at hv
    tauto
  · refine (all one more two).2.2.1 _ _ fun S hS => ?_
    rw [List.mem_singleton.mp hS]
    constructor
    · rintro a b rfl rfl hab
      exact absurd rfl hab
    · rintro a b c rfl rfl rfl
      exact ⟨by decide +kernel, by decide +kernel, by decide +kernel⟩
  · exact (all (.int .int64 ⟨9007199254740993, by decide, by decide⟩)
      (.int .int64 ⟨9007199254740992, by decide, by decide⟩)
      (.float .float64 0x4340000000000000)).2.2.2 trivial trivial trivial (by decide +kernel)

/-- **Merged integers**: a float that two integers are rounded to equals both, though one of them is
the larger one. -/
theorem not_order_total :
    ¬ ∀ (a b c : Scalar) (o p q : Ordering), a.ordered = true → b.ordered = true →
      c.ordered = true → a.compare? b = some o → b.compare? c = some p → a.compare? c = some q →
      o.isLE → p.isLE → q.isLE := by
  intro h
  have hgt := h (.int .int64 ⟨9007199254740993, by decide, by decide⟩)
    (.float .float64 0x4340000000000000) (.int .int64 ⟨9007199254740992, by decide, by decide⟩)
    .eq .eq .gt rfl (by decide +kernel) rfl (by decide +kernel) (by decide +kernel)
    (by decide +kernel) rfl rfl
  cases hgt

end Scalar

end TableQuery
