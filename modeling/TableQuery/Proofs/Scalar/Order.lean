import Mathlib.Data.List.Pairwise
import TableQuery.Expr.RowExpr
import TableQuery.Proofs.Expr.Value

/-! # Orders on the values at hand

Comparing values has the laws of an order only on some of them: numbers of different kinds need not
compare transitively, and values that do not compare count as equal. `OrderedOn S order` says that
`order` agrees on the values in `S` with a comparison that has the laws. It holds of each family of
values (`Scalar.orderedOn_family`), it is kept by what sort keys make of an order, and it is what a
stable sort needs (`OrderedOn.pairwise_isLE_mergeSort`, `OrderedOn.pairwise_mergeSort`), also to
commute with a filter (`OrderedOn.filter_mergeSort`). -/

namespace TableQuery

variable {α β : Type}

/-- **An order on some values**: it agrees on them with a lawful comparison of all values. -/
def OrderedOn (S : α → Prop) (order : α → α → Ordering) : Prop :=
  ∃ cmp : α → α → Ordering, Std.TransCmp cmp ∧ ∀ a b, S a → S b → order a b = cmp a b

namespace OrderedOn

variable {S : α → Prop} {order : α → α → Ordering}

/-! ### Orders from others -/

theorem of_cmp (cmp : α → α → Ordering) [h : Std.TransCmp cmp] : OrderedOn S cmp :=
  ⟨cmp, h, fun _ _ _ _ => rfl⟩

theorem congr {other : α → α → Ordering} (h : OrderedOn S other)
    (heq : ∀ a b, S a → S b → order a b = other a b) : OrderedOn S order := by
  obtain ⟨cmp, hcmp, hother⟩ := h
  exact ⟨cmp, hcmp, fun a b ha hb => (heq a b ha hb).trans (hother a b ha hb)⟩

/-- Values are ordered by what is computed from them. -/
theorem comap {T : β → Prop} {other : β → β → Ordering} (h : OrderedOn T other) (f : α → β)
    (hf : ∀ a, S a → T (f a)) : OrderedOn S fun a b => other (f a) (f b) := by
  obtain ⟨cmp, hcmp, hother⟩ := h
  refine ⟨fun a b => cmp (f a) (f b), ?_, fun a b ha hb => hother _ _ (hf a ha) (hf b hb)⟩
  exact { eq_swap := Std.OrientedCmp.eq_swap, isLE_trans := Std.TransCmp.isLE_trans }

/-- Ties of one order are broken by another. -/
theorem lex {other : α → α → Ordering} (h : OrderedOn S order) (hother : OrderedOn S other) :
    OrderedOn S fun a b => (order a b).then (other a b) := by
  obtain ⟨cmp, hcmp, horder⟩ := h
  obtain ⟨cmp', hcmp', hother⟩ := hother
  refine ⟨compareLex cmp cmp', inferInstance, fun a b ha hb => ?_⟩
  simp only [horder a b ha hb, hother a b ha hb, compareLex]

theorem swap (h : OrderedOn S order) : OrderedOn S fun a b => (order a b).swap := by
  obtain ⟨cmp, hcmp, horder⟩ := h
  refine ⟨fun a b => cmp b a, Std.TransCmp.opposite, fun a b ha hb => ?_⟩
  simp only [horder a b ha hb]
  exact Std.OrientedCmp.eq_swap.symm

theorem const_eq : OrderedOn S fun _ _ => .eq := by
  refine ⟨fun _ _ => .eq, ?_, fun _ _ _ _ => rfl⟩
  exact { eq_swap := rfl, isLE_trans := fun h _ => h }

theorem mono {T : α → Prop} (h : OrderedOn T order) (hS : ∀ a, S a → T a) : OrderedOn S order := by
  obtain ⟨cmp, hcmp, horder⟩ := h
  exact ⟨cmp, hcmp, fun a b ha hb => horder a b (hS a ha) (hS b hb)⟩

/-- **The laws on the values at hand** make an order: the other values are put behind them. -/
theorem of_laws (hswap : ∀ a b, S a → S b → order a b = (order b a).swap)
    (htrans : ∀ a b c, S a → S b → S c → (order a b).isLE → (order b c).isLE →
      (order a c).isLE) : OrderedOn S order := by
  classical
  let cmp : α → α → Ordering := fun a b =>
    if S a then (if S b then order a b else .lt) else (if S b then .gt else .eq)
  have hlaws : Std.TransCmp cmp := by
    refine { eq_swap := fun {a b} => ?_, isLE_trans := fun {a b c} => ?_ }
    · by_cases ha : S a <;> by_cases hb : S b <;> simp [cmp, ha, hb]
      exact hswap a b ha hb
    · by_cases ha : S a <;> by_cases hb : S b <;> by_cases hc : S c <;> simp [cmp, ha, hb, hc]
      exact htrans a b c ha hb hc
  exact ⟨cmp, hlaws, fun a b ha hb => by simp [cmp, ha, hb]⟩

/-! ### Laws -/

variable {a b c : α}

theorem eq_swap (h : OrderedOn S order) (ha : S a) (hb : S b) : order a b = (order b a).swap := by
  obtain ⟨cmp, hcmp, horder⟩ := h
  rw [horder a b ha hb, horder b a hb ha]
  exact Std.OrientedCmp.eq_swap

theorem self (h : OrderedOn S order) (ha : S a) : order a a = .eq := by
  obtain ⟨cmp, hcmp, horder⟩ := h
  rw [horder a a ha ha]
  exact Std.ReflCmp.compare_self

theorem isLE_trans (h : OrderedOn S order) (ha : S a) (hb : S b) (hc : S c)
    (hab : (order a b).isLE) (hbc : (order b c).isLE) : (order a c).isLE := by
  obtain ⟨cmp, hcmp, horder⟩ := h
  rw [horder a b ha hb] at hab
  rw [horder b c hb hc] at hbc
  rw [horder a c ha hc]
  exact Std.TransCmp.isLE_trans hab hbc

/-- Values that tie stand in the same order to others. -/
theorem congr_left (h : OrderedOn S order) (ha : S a) (hb : S b) (hc : S c)
    (hab : order a b = .eq) : order a c = order b c := by
  obtain ⟨cmp, hcmp, horder⟩ := h
  rw [horder a b ha hb] at hab
  rw [horder a c ha hc, horder b c hb hc]
  exact Std.TransCmp.congr_left hab

theorem lt_of_lt_of_isLE (h : OrderedOn S order) (ha : S a) (hb : S b) (hc : S c)
    (hab : order a b = .lt) (hbc : (order b c).isLE) : order a c = .lt := by
  obtain ⟨cmp, hcmp, horder⟩ := h
  rw [horder a b ha hb] at hab
  rw [horder b c hb hc] at hbc
  rw [horder a c ha hc]
  exact Std.TransCmp.lt_of_lt_of_isLE hab hbc

/-! ### Sorts -/

variable {l : List α}

/-- A sort compares the elements of its list only, so it may compare them by another order that
agrees on these. -/
theorem mergeSort_congr {other : α → α → Ordering}
    (h : ∀ a ∈ l, ∀ b ∈ l, order a b = other a b) :
    (l.mergeSort fun a b => (order a b).isLE) = l.mergeSort fun a b => (other a b).isLE := by
  have hmap := List.map_mergeSort (r := fun a b => (order a b).isLE)
    (s := fun a b => (other a b).isLE) (f := id) (l := l) fun a ha b hb => by rw [h a ha b hb]; rfl
  simpa using hmap

theorem isLE_total (cmp : α → α → Ordering) [Std.OrientedCmp cmp] (a b : α) :
    ((cmp a b).isLE || (cmp b a).isLE) = true := by
  have hswap : cmp b a = (cmp a b).swap := Std.OrientedCmp.eq_swap
  rw [hswap]
  cases cmp a b <;> rfl

/-- **A sort** puts no element before a smaller one. -/
theorem pairwise_isLE_mergeSort (h : OrderedOn S order) (hS : ∀ a ∈ l, S a) :
    (l.mergeSort fun a b => (order a b).isLE).Pairwise fun a b => (order a b).isLE := by
  obtain ⟨cmp, hcmp, horder⟩ := h
  rw [mergeSort_congr fun a ha b hb => horder a b (hS a ha) (hS b hb)]
  refine (List.pairwise_mergeSort (fun _ _ _ => Std.TransCmp.isLE_trans) (isLE_total cmp)
    l).imp_of_mem fun ha hb hle => ?_
  rw [horder _ _ (hS _ (List.mem_mergeSort.mp ha)) (hS _ (List.mem_mergeSort.mp hb))]
  exact hle

/-! ### Stable sorts -/

/-- One value before another: it is smaller, or it ties and stands in front. -/
def Before (order : α → α → Ordering) (place : α → Nat) (a b : α) : Prop :=
  order a b = .lt ∨ order a b = .eq ∧ place a < place b

variable {place : α → Nat}

instance (a b : α) : Decidable (Before order place a b) := by
  unfold Before; infer_instance

theorem Before.isLE (h : Before order place a b) : (order a b).isLE := by
  rcases h with h | ⟨h, -⟩ <;> rw [h] <;> rfl

theorem not_before_self (h : OrderedOn S order) (ha : S a) : ¬ Before order place a a := by
  rintro (hlt | ⟨-, hplace⟩)
  · rw [h.self ha] at hlt
    cases hlt
  · exact absurd hplace (Nat.lt_irrefl _)

theorem not_before_of_before (h : OrderedOn S order) (ha : S a) (hb : S b)
    (hab : Before order place a b) : ¬ Before order place b a := by
  have hswap := h.eq_swap hb ha
  rintro (hlt | ⟨heq, hplace⟩) <;> rcases hab with hlt' | ⟨heq', hplace'⟩
  · rw [hlt, hlt'] at hswap
    cases hswap
  · rw [hlt, heq'] at hswap
    cases hswap
  · rw [heq, hlt'] at hswap
    cases hswap
  · exact absurd hplace (Nat.lt_asymm hplace')

/-- Two elements of a list that is in the order of places stand in it as their places say. -/
theorem pair_sublist_of_place_lt (hl : l.Pairwise fun a b => place a < place b) (ha : a ∈ l)
    (hb : b ∈ l) (hab : place a < place b) : [a, b].Sublist l := by
  induction hl with
  | nil => cases ha
  | cons hx _ ih =>
    rcases List.mem_cons.mp ha with hax | ha
    · rcases List.mem_cons.mp hb with hbx | hb
      · rw [hax, hbx] at hab
        exact absurd hab (Nat.lt_irrefl _)
      · rw [hax]
        exact .cons_cons _ (List.singleton_sublist.mpr hb)
    · rcases List.mem_cons.mp hb with hbx | hb
      · exact absurd (hbx ▸ hx a ha) (Nat.lt_asymm hab)
      · exact .cons _ (ih ha hb)

/-- Two elements of a list without repetitions stand in it in one order. -/
theorem not_pair_sublist_of_nodup (hl : l.Nodup) (hab : [a, b].Sublist l) :
    ¬ [b, a].Sublist l := by
  induction l with
  | nil => cases hab
  | cons x xs ih =>
    obtain ⟨hx, hxs⟩ := List.nodup_cons.mp hl
    have hmem : ∀ {c d}, [c, d].Sublist xs → c ∈ xs ∧ d ∈ xs := fun h =>
      ⟨h.subset List.mem_cons_self, h.subset (List.mem_cons_of_mem _ List.mem_cons_self)⟩
    intro hba
    cases hab with
    | cons _ hab =>
      cases hba with
      | cons _ hba => exact ih hxs hab hba
      | cons_cons _ _ => exact hx (hmem hab).2
    | cons_cons _ hb =>
      cases hba with
      | cons _ hba => exact hx (hmem hba).2
      | cons_cons _ _ => exact hx (List.singleton_sublist.mp hb)

/-- **A stable sort** puts every element before those that follow. -/
theorem pairwise_mergeSort (h : OrderedOn S order) (hS : ∀ a ∈ l, S a)
    (hl : l.Pairwise fun a b => place a < place b) :
    (l.mergeSort fun a b => (order a b).isLE).Pairwise (Before order place) := by
  have hsorted := h.pairwise_isLE_mergeSort hS
  obtain ⟨cmp, hcmp, horder⟩ := h
  rw [mergeSort_congr fun a ha b hb => horder a b (hS a ha) (hS b hb)] at hsorted ⊢
  have hnodup : (l.mergeSort fun a b => (cmp a b).isLE).Nodup :=
    (List.mergeSort_perm l _).nodup_iff.mpr
      (hl.imp fun hlt he => absurd (he ▸ hlt) (Nat.lt_irrefl _))
  rw [List.pairwise_iff_forall_sublist] at hsorted ⊢
  intro a b hab
  have ha : a ∈ l := List.mem_mergeSort.mp (hab.subset List.mem_cons_self)
  have hb : b ∈ l := List.mem_mergeSort.mp (hab.subset (List.mem_cons_of_mem _ List.mem_cons_self))
  have hle := hsorted hab
  rw [horder a b (hS a ha) (hS b hb)] at hle
  rw [Before, horder a b (hS a ha) (hS b hb)]
  cases hcase : cmp a b with
  | lt => exact .inl rfl
  | gt => rw [hcase] at hle; cases hle
  | eq =>
    have hne : place a ≠ place b := by
      have : Std.Symm fun a b : α => place a ≠ place b := ⟨fun _ _ => Ne.symm⟩
      refine List.Pairwise.forall (hl.imp Nat.ne_of_lt) ha hb ?_
      exact (List.pairwise_cons.mp (hab.nodup hnodup)).1 b List.mem_cons_self
    refine .inr ⟨rfl, Nat.lt_of_le_of_ne (Nat.le_of_not_lt fun hplace => ?_) hne⟩
    -- A sort is stable: it would keep the two in the order in which they were.
    refine not_pair_sublist_of_nodup hnodup hab (List.pair_sublist_mergeSort
      (fun _ _ _ => Std.TransCmp.isLE_trans) (isLE_total cmp) ?_
      (pair_sublist_of_place_lt hl hb ha hplace))
    have hswap : cmp b a = (cmp a b).swap := Std.OrientedCmp.eq_swap
    rw [hswap, hcase]
    rfl

/-- Elements with their places stand in the order of these. -/
theorem pairwise_place_zipIdx (l : List α) : l.zipIdx.Pairwise fun a b => a.2 < b.2 := by
  rw [← List.pairwise_map (f := Prod.snd) (R := (· < ·)), List.zipIdx_map_snd]
  exact List.pairwise_lt_range'

/-- A stable sort is the only order of a list in which every element is before those that follow.
-/
theorem mergeSort_eq_of_pairwise (h : OrderedOn S order) (hS : ∀ a ∈ l, S a)
    (hl : l.Pairwise fun a b => place a < place b) {out : List α}
    (hout : out.Pairwise (Before order place)) (hperm : out.Perm l) :
    out = l.mergeSort fun a b => (order a b).isLE := by
  refine List.Perm.eq_of_pairwise (fun a b ha hb hab hba => ?_) hout
    (h.pairwise_mergeSort hS hl) (hperm.trans (List.mergeSort_perm l _).symm)
  have ha := hS a (hperm.subset ha)
  have hb := hS b (List.mem_mergeSort.mp hb)
  exact absurd hba (h.not_before_of_before ha hb hab)

/-- **Filtering a sorted list** gives what sorting the filtered list gives. -/
theorem filter_mergeSort (h : OrderedOn S order) (hS : ∀ a ∈ l, S a) (p : α → Bool) :
    (l.mergeSort fun a b => (order a b).isLE).filter p =
      (l.filter p).mergeSort fun a b => (order a b).isLE := by
  -- Places tell elements apart that occur more than once, so the list is sorted with its places.
  have hplaced := h.comap (S := fun a : α × Nat => S a.1) Prod.fst fun _ ha => ha
  have hSplaced : ∀ a ∈ l.zipIdx, S a.1 := fun a ha => hS _ (List.fst_mem_of_mem_zipIdx ha)
  have hkept : (l.zipIdx.filter fun a => p a.1).Sublist l.zipIdx := List.filter_sublist
  have hsorted := hplaced.mergeSort_eq_of_pairwise (fun a ha => hSplaced a (hkept.subset ha))
    ((pairwise_place_zipIdx l).sublist hkept)
    ((hplaced.pairwise_mergeSort hSplaced (pairwise_place_zipIdx l)).filter _)
    ((List.mergeSort_perm l.zipIdx _).filter _)
  have hsort : ∀ m : List (α × Nat), (m.mergeSort fun a b => (order a.1 b.1).isLE).map Prod.fst =
      (m.map Prod.fst).mergeSort fun a b => (order a b).isLE := fun m =>
    List.map_mergeSort fun _ _ _ _ => rfl
  have hfilter : ∀ m : List (α × Nat),
      (m.filter fun a => p a.1).map Prod.fst = (m.map Prod.fst).filter p := fun m =>
    List.filter_map.symm
  have hmap := congrArg (List.map Prod.fst) hsorted
  rwa [hfilter, hsort, hsort, hfilter, List.zipIdx_map_fst] at hmap

end OrderedOn

/-! ### Families of values -/

namespace Scalar

/-- The families of values that are totally ordered, integers of any width in one. -/
inductive Family where
  | integer | boolean | text | bytes | date | time | timestamp
  deriving DecidableEq

/-- The family of a value, if it is in one. -/
def family? : Scalar → Option Family
  | int _ _ => some .integer
  | boolean _ => some .boolean
  | utf8 _ => some .text
  | binary _ => some .bytes
  | date _ => some .date
  | time _ => some .time
  | timestamp _ _ => some .timestamp
  | _ => none

theorem compareBytes_eq : ∀ a b : List UInt8,
    compareBytes a b = List.compareLex (compareOn UInt8.toNat) a b
  | [], [] | [], _ :: _ | _ :: _, [] => rfl
  | a :: r, b :: s => by
    rw [compareBytes, List.compareLex_cons_cons, compareBytes_eq r s]
    rfl

/-- The number that orders a value among those of its family, if they are ordered by numbers. -/
def orderNumber : Scalar → Int
  | int _ v => v.val
  | boolean b => b.toInt
  | date d => d.day.val
  | time t => t.nanos.val
  | timestamp t _ => t.instant.val
  | _ => 0

def orderText : Scalar → String
  | utf8 s => s
  | _ => ""

def orderBytes : Scalar → List UInt8
  | binary bs => bs
  | _ => []

theorem compare_natCast (m n : Nat) : compare (m : Int) n = compare m n := by
  simp only [compare, compareOfLessAndEq, Int.ofNat_lt, Int.ofNat_inj]

/-- **Values of a family** are totally ordered. -/
theorem orderedOn_family (f : Family) :
    OrderedOn (fun v : Scalar => v.family? = some f) fun a b => (a.compare? b).getD .eq := by
  cases f with
  | integer | date | timestamp =>
    refine .congr (.of_cmp (compareOn orderNumber)) fun a b ha hb => ?_
    cases a <;> cases ha
    cases b <;> cases hb
    rw [compare?]
    rfl
  | time =>
    refine .congr (.of_cmp (compareOn orderNumber)) fun a b ha hb => ?_
    cases a <;> cases ha
    cases b <;> cases hb
    rw [compare?]
    exact (compare_natCast _ _).symm
  | boolean =>
    refine .congr (.of_cmp (compareOn orderNumber)) fun a b ha hb => ?_
    cases a <;> cases ha
    rename_i a
    cases b <;> cases hb
    rename_i b
    rw [compare?]
    cases a <;> cases b <;> rfl
  | text =>
    refine .congr (.of_cmp (compareOn orderText)) fun a b ha hb => ?_
    cases a <;> cases ha
    cases b <;> cases hb
    rw [compare?]
    rfl
  | bytes =>
    have hbytes : OrderedOn (fun _ => True) (List.compareLex (compareOn UInt8.toNat)) := .of_cmp _
    refine .congr (hbytes.comap orderBytes fun _ _ => trivial) fun a b ha hb => ?_
    cases a <;> cases ha
    cases b <;> cases hb
    rw [compare?, compareBytes_eq]
    rfl

end Scalar

/-! ### Sort keys -/

namespace SortKey

/-- Where a value stands by being null or not. -/
def nullRank {α : Type} (k : SortKey α) (v : Scalar) : Nat :=
  if v.isNull then (if k.nullsFirst then 0 else 2) else 1

/-- **The order under a key** of nulls and of values that are ordered. -/
theorem orderedOn_order_of {α : Type} (k : SortKey α) {S : Scalar → Prop}
    (hS : ∀ v, S v → v.isNull = false)
    (h : OrderedOn S fun a b => (a.compare? b).getD .eq) :
    OrderedOn (fun v => v = Scalar.null ∨ S v) k.order := by
  obtain ⟨cmp, hcmp, hvalues⟩ := h
  have hdirection : OrderedOn (fun v => v = Scalar.null ∨ S v)
      fun a b => if k.descending then (cmp a b).swap else cmp a b := by
    cases k.descending with
    | false => exact .of_cmp cmp
    | true => exact (OrderedOn.of_cmp cmp).swap
  refine ((OrderedOn.of_cmp (compareOn k.nullRank)).lex hdirection).congr fun a b ha hb => ?_
  have hnull : Scalar.null.isNull = true := rfl
  rcases ha with rfl | ha <;> rcases hb with rfl | hb
  · have hself : cmp .null .null = .eq := Std.ReflCmp.compare_self
    simp [order, compareOn, hself, hnull]
  · cases hn : k.nullsFirst <;>
      simp [order, compareOn, nullRank, hnull, hS b hb, hn] <;> rfl
  · cases hn : k.nullsFirst <;>
      simp [order, compareOn, nullRank, hnull, hS a ha, hn] <;> rfl
  · simp [order, compareOn, nullRank, hS a ha, hS b hb, hvalues a b ha hb]

/-- **The order under a key** of nulls and values of a family. -/
theorem orderedOn_order {α : Type} (k : SortKey α) (f : Scalar.Family) :
    OrderedOn (fun v => v = Scalar.null ∨ v.family? = some f) k.order := by
  refine k.orderedOn_order_of ?_ (Scalar.orderedOn_family f)
  rintro (_ | _) h <;> first | rfl | cases h

/-- **The order of rows under sort keys**, if under each key the values of the rows are nulls and
values of one family. -/
theorem orderedOn_orderAll {S : Row → Prop} : ∀ {keys : List (SortKey RowExpr)},
    (∀ k ∈ keys, ∃ f, ∀ r, S r →
      k.expr.valueOn r = Scalar.null ∨ (k.expr.valueOn r).family? = some f) →
    OrderedOn S fun r s => orderAll keys (keys.map fun k => k.expr.valueOn r)
      (keys.map fun k => k.expr.valueOn s)
  | [], _ => OrderedOn.const_eq.congr fun _ _ _ _ => rfl
  | k :: keys, h => by
    obtain ⟨⟨f, hf⟩, hkeys⟩ := List.forall_mem_cons.mp h
    exact (((orderedOn_order k f).comap k.expr.valueOn hf).lex (orderedOn_orderAll hkeys)).congr
      fun _ _ _ _ => rfl

end SortKey

end TableQuery
