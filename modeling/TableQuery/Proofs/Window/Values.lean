import Mathlib
import TableQuery.Operator.Run
import TableQuery.Proofs.Grouping
import TableQuery.Proofs.Scalar.Order

/-! # Windows by their frames

What a window means, without sorting places and searching for ties. The rows of a partition are
those of one key (`partition`), a row's place in it is the number of rows before it (`placeOf`), and
its frame the rows up to it and those that tie with it (`frame`), or the whole partition if there
are no sort keys. The main statement, `run_window_eq_frames`, is that running windows puts behind
every row its place, or the aggregate over its frame, exactly when nothing that is evaluated fails.
It is about sort keys whose values are totally ordered (`KeysOrdered`).

The search for ties is followed by `runningFrom_eq_ok_iff`: what it has passed is before all that is
left, so the rows up to the next ones and their ties are what it has seen. -/

namespace TableQuery

namespace RowWindow

variable (w : RowWindow)

/-! ### Partitions, places and frames -/

/-- The key of a row's partition. -/
def keyOf (row : Row) : List Key := w.partitionBy.map fun e => (e.valueOn row).key

/-- The values of the sort keys on a row. -/
def sortValues (row : Row) : List Scalar := w.orderBy.map fun k => k.expr.valueOn row

/-- The order of rows, each with its place, under the sort keys. -/
def order (p q : Row × Nat) : Ordering :=
  SortKey.orderAll w.orderBy (w.sortValues p.1) (w.sortValues q.1)

/-- **A row before another**: it is smaller, or it ties and comes earlier in the input. -/
abbrev Before (p q : Row × Nat) : Prop := OrderedOn.Before w.order Prod.snd p q

/-- **The rows of a partition**, each with its place, in the order of the input. -/
def partition (rows : List Row) (k : List Key) : List (Row × Nat) :=
  rows.zipIdx.filter fun p => w.keyOf p.1 = k

/-- The rows of a partition in their stable order. -/
def sorted (rows : List Row) (k : List Key) : List (Row × Nat) :=
  (w.partition rows k).mergeSort fun p q => (w.order p q).isLE

/-- **The place of a row** in its partition: the number of rows before it. -/
def placeOf (rows : List Row) (p : Row × Nat) : Nat :=
  ((w.partition rows (w.keyOf p.1)).filter fun q => w.Before q p).length

/-- The rows of a list that sort before a row or tie with it. -/
def upTo (l : List (Row × Nat)) (p : Row × Nat) : List (Row × Nat) :=
  l.filter fun q => w.order q p ≠ .gt

/-- **The frame of a row**: the rows of its partition up to it, ties included. -/
def frame (rows : List Row) (p : Row × Nat) : List (Row × Nat) :=
  w.upTo (w.sorted rows (w.keyOf p.1)) p

/-- **The value of a row**: its place, or the aggregate over its frame. -/
def valueAt (rows : List Row) (p : Row × Nat) : Scalar :=
  match w.function with
  | .rowNumber => .ofCount (w.placeOf rows p)
  | .aggregate a => (a.stateOver ((w.frame rows p).map Prod.fst)).result

/-- **The sort keys are totally ordered**: under each of them the values of the rows are nulls and
values of one family. -/
def KeysOrdered (rows : List Row) : Prop :=
  ∀ k ∈ w.orderBy, ∃ f, ∀ r ∈ rows,
    k.expr.valueOn r = Scalar.null ∨ (k.expr.valueOn r).family? = some f

/-- **Nothing fails**: the keys have values on every row, and an aggregate can be updated with the
rows of every partition in their order. -/
structure Defined (rows : List Row) : Prop where
  partitionBy : ∀ r ∈ rows, ∀ e ∈ w.partitionBy, ∃ v, e.eval r = .ok v
  orderBy : ∀ r ∈ rows, ∀ k ∈ w.orderBy, ∃ v, k.expr.eval r = .ok v
  updates : ∀ a, w.function = .aggregate a →
    ∀ k, ∃ s, a.fold a.initial ((w.sorted rows k).map Prod.fst) = .ok s

variable {w} {rows : List Row}

theorem partition_sublist (rows : List Row) (k : List Key) :
    (w.partition rows k).Sublist rows.zipIdx := List.filter_sublist

theorem mem_partition_self {p : Row × Nat} (hp : p ∈ rows.zipIdx) :
    p ∈ w.partition rows (w.keyOf p.1) := List.mem_filter.mpr ⟨hp, by simp⟩

theorem keyOf_of_mem_partition {k : List Key} {p : Row × Nat} (hp : p ∈ w.partition rows k) :
    w.keyOf p.1 = k := of_decide_eq_true (List.mem_filter.mp hp).2

theorem pairwise_place_partition (rows : List Row) (k : List Key) :
    (w.partition rows k).Pairwise fun p q => p.2 < q.2 :=
  (OrderedOn.pairwise_place_zipIdx rows).sublist (partition_sublist rows k)

theorem mem_sorted {k : List Key} {p : Row × Nat} :
    p ∈ w.sorted rows k ↔ p ∈ w.partition rows k := List.mem_mergeSort

theorem sorted_perm (rows : List Row) (k : List Key) :
    (w.sorted rows k).Perm (w.partition rows k) := List.mergeSort_perm _ _

theorem KeysOrdered.orderedOn (h : w.KeysOrdered rows) :
    OrderedOn (fun p : Row × Nat => p.1 ∈ rows) w.order :=
  (SortKey.orderedOn_orderAll h).comap Prod.fst fun _ hp => hp

theorem fst_mem_of_mem_sorted {k : List Key} {p : Row × Nat} (hp : p ∈ w.sorted rows k) :
    p.1 ∈ rows :=
  List.fst_mem_of_mem_zipIdx ((partition_sublist rows k).subset (mem_sorted.mp hp))

/-- A partition is sorted: every row is before those that follow. -/
theorem KeysOrdered.pairwise_sorted (h : w.KeysOrdered rows) (k : List Key) :
    (w.sorted rows k).Pairwise w.Before :=
  h.orderedOn.pairwise_mergeSort (fun _ hp => fst_mem_of_mem_sorted (mem_sorted.mpr hp))
    (pairwise_place_partition rows k)

/-! ### Places -/

/-- In a list where every element is before those that follow, the elements before one are as many
as its index says. -/
theorem length_filter_before {S : Row × Nat → Prop} (h : OrderedOn S w.order) :
    ∀ {l : List (Row × Nat)}, (∀ p ∈ l, S p) → l.Pairwise w.Before → ∀ {i : Nat} {p},
      l[i]? = some p → (l.filter fun q => w.Before q p).length = i
  | [], _, _, _, _, hi => by cases hi
  | q :: l, hS, hl, 0, p, hi => by
    obtain rfl : q = p := by simpa using hi
    obtain ⟨hq, hrest⟩ := List.forall_mem_cons.mp hS
    have hnone : (q :: l).filter (fun r => w.Before r q) = [] := by
      rw [List.filter_eq_nil_iff]
      intro r hr hbefore
      rcases List.mem_cons.mp hr with rfl | hr
      · exact h.not_before_self hq (of_decide_eq_true hbefore)
      · exact h.not_before_of_before hq (hrest r hr) ((List.pairwise_cons.mp hl).1 r hr)
          (of_decide_eq_true hbefore)
    rw [hnone]
    rfl
  | q :: l, hS, hl, i + 1, p, hi => by
    obtain ⟨hq, hl⟩ := List.pairwise_cons.mp hl
    have hi : l[i]? = some p := by simpa using hi
    have ih := length_filter_before h (fun r hr => hS r (List.mem_cons_of_mem q hr)) hl hi
    have hqp : w.Before q p := hq p (List.mem_of_getElem? hi)
    simp [hqp, ih]

/-- The places of the rows of a sorted partition. -/
theorem KeysOrdered.placeOf_getElem? (h : w.KeysOrdered rows) {k : List Key} {i : Nat}
    {p : Row × Nat} (hi : (w.sorted rows k)[i]? = some p) : w.placeOf rows p = i := by
  have hk : w.keyOf p.1 = k := keyOf_of_mem_partition (mem_sorted.mp (List.mem_of_getElem? hi))
  rw [placeOf, hk, ← ((sorted_perm rows k).filter _).length_eq]
  exact length_filter_before h.orderedOn (fun _ => fst_mem_of_mem_sorted) (h.pairwise_sorted k) hi

theorem KeysOrdered.map_placeOf_sorted (h : w.KeysOrdered rows) (k : List Key) :
    (w.sorted rows k).map (w.placeOf rows) = List.range (w.partition rows k).length := by
  refine List.ext_getElem? fun i => ?_
  rw [List.getElem?_map, ← (sorted_perm rows k).length_eq]
  cases hi : (w.sorted rows k)[i]? with
  | none => simpa using hi
  | some p =>
    obtain ⟨hlt, -⟩ := List.getElem?_eq_some_iff.mp hi
    rw [List.getElem?_range hlt, Option.map_some, h.placeOf_getElem? hi]

/-! ### The search for ties -/

/-- A row as the sort sees it. -/
def member (w : RowWindow) (p : Row × Nat) : Member := ⟨w.sortValues p.1, p.2, p.1⟩

/-- The rows that tie with the first of those that are left. -/
def ties (w : RowWindow) (p : Row × Nat) (l : List (Row × Nat)) : List (Row × Nat) :=
  p :: l.takeWhile fun q => w.order p q == .eq

/-- The rows after the ties of the first one. -/
def afterTies (w : RowWindow) (p : Row × Nat) (l : List (Row × Nat)) : List (Row × Nat) :=
  l.dropWhile fun q => w.order p q == .eq

theorem ties_append_afterTies (p : Row × Nat) (l : List (Row × Nat)) :
    w.ties p l ++ w.afterTies p l = p :: l := by
  rw [ties, afterTies, List.cons_append, List.takeWhile_append_dropWhile]

theorem runningFrom_cons (a : RowAggregate) (s : AggregateState) (p : Row × Nat)
    (l : List (Row × Nat)) : w.runningFrom a s ((p :: l).map w.member) = do
      let t ← a.fold s ((w.ties p l).map Prod.fst)
      let values ← w.runningFrom a t ((w.afterTies p l).map w.member)
      return (w.ties p l).map (fun q => (q.2, t.result)) ++ values := by
  have hpeer : Keyed.isPeer w.orderBy (w.member p) ∘ w.member = fun q => w.order p q == .eq := rfl
  rw [List.map_cons, runningFrom, List.takeWhile_map, List.dropWhile_map, hpeer]
  simp only [ties, afterTies, List.map_cons, List.map_map, Function.comp_def, member]

/-- **What holds in the search**: the rows that it has passed are before all that are left, and
those are sorted. -/
structure Searching (w : RowWindow) (S : Row × Nat → Prop) (front rest : List (Row × Nat)) :
    Prop where
  mem : ∀ q ∈ rest, S q
  before : ∀ q ∈ front, ∀ r ∈ rest, w.order q r = .lt
  sorted : rest.Pairwise fun q r => (w.order q r).isLE

namespace Searching

variable {S : Row × Nat → Prop} {front : List (Row × Nat)} {p : Row × Nat} {l : List (Row × Nat)}

theorem mem_of_mem_ties {q : Row × Nat} (hq : q ∈ w.ties p l) : q ∈ p :: l := by
  rw [← ties_append_afterTies (w := w)]
  exact List.mem_append_left _ hq

theorem mem_of_mem_afterTies {q : Row × Nat} (hq : q ∈ w.afterTies p l) : q ∈ p :: l := by
  rw [← ties_append_afterTies (w := w)]
  exact List.mem_append_right _ hq

theorem order_eq (h : OrderedOn S w.order) (hp : S p) {q : Row × Nat} (hq : q ∈ w.ties p l) :
    w.order p q = .eq := by
  rcases List.mem_cons.mp hq with rfl | hq
  · exact h.self hp
  · have := List.mem_takeWhile_imp hq
    exact eq_of_beq this

theorem order_lt (h : OrderedOn S w.order) (hs : w.Searching S front (p :: l)) {q : Row × Nat}
    (hq : q ∈ w.afterTies p l) : w.order p q = .lt := by
  obtain ⟨hp, hS⟩ := List.forall_mem_cons.mp hs.mem
  have hl := hs.sorted
  clear hs
  induction l with
  | nil => cases hq
  | cons d l ih =>
    obtain ⟨hd, hrest⟩ := List.forall_mem_cons.mp hS
    obtain ⟨hle, hl⟩ := List.pairwise_cons.mp hl
    obtain ⟨hpd, hpl⟩ := List.forall_mem_cons.mp hle
    obtain ⟨hdl, hll⟩ := List.pairwise_cons.mp hl
    rw [afterTies, List.dropWhile_cons] at hq
    split at hq
    · exact ih hq hrest (List.pairwise_cons.mpr ⟨hpl, hll⟩)
    · rename_i hne
      have hlt : w.order p d = .lt := by
        cases ho : w.order p d with
        | lt => rfl
        | eq => rw [ho] at hne; exact absurd rfl hne
        | gt => rw [ho] at hpd; cases hpd
      rcases List.mem_cons.mp hq with rfl | hq
      · exact hlt
      · exact h.lt_of_lt_of_isLE hp hd (hrest q hq) hlt (hdl q hq)

/-- The search passes the ties. -/
theorem afterTies (h : OrderedOn S w.order) (hs : w.Searching S front (p :: l)) :
    w.Searching S (front ++ w.ties p l) (w.afterTies p l) where
  mem q hq := hs.mem q (mem_of_mem_afterTies hq)
  before q hq r hr := by
    have hp : S p := hs.mem p List.mem_cons_self
    rcases List.mem_append.mp hq with hq | hq
    · exact hs.before q hq r (mem_of_mem_afterTies hr)
    · rw [← h.congr_left hp (hs.mem q (mem_of_mem_ties hq)) (hs.mem r (mem_of_mem_afterTies hr))
        (order_eq h hp hq)]
      exact order_lt h hs hr
  sorted := hs.sorted.sublist ((List.dropWhile_sublist _).cons p)

/-- What is up to a tie is what the search has passed, and the ties. -/
theorem upTo_eq (h : OrderedOn S w.order) (hs : w.Searching S front (p :: l)) {q : Row × Nat}
    (hq : q ∈ w.ties p l) : w.upTo (front ++ p :: l) q = front ++ w.ties p l := by
  have hp : S p := hs.mem p List.mem_cons_self
  have hmem : S q := hs.mem q (mem_of_mem_ties hq)
  have hswap : ∀ r ∈ p :: l, w.order r q = (w.order p r).swap := by
    intro r hr
    rw [h.eq_swap (hs.mem r hr) hmem, ← h.congr_left hp hmem (hs.mem r hr) (order_eq h hp hq)]
  have hfront : w.upTo front q = front := by
    rw [upTo, List.filter_eq_self]
    intro r hr
    rw [hs.before r hr q (mem_of_mem_ties hq)]
    rfl
  have hties : w.upTo (w.ties p l) q = w.ties p l := by
    rw [upTo, List.filter_eq_self]
    intro r hr
    rw [hswap r (mem_of_mem_ties hr), order_eq h hp hr]
    rfl
  have hafter : w.upTo (w.afterTies p l) q = [] := by
    rw [upTo, List.filter_eq_nil_iff]
    intro r hr
    rw [hswap r (mem_of_mem_afterTies hr), order_lt h hs hr]
    exact Bool.false_ne_true
  rw [upTo] at hfront hties hafter
  rw [upTo, ← ties_append_afterTies, List.filter_append, List.filter_append, hfront, hties, hafter,
    List.append_nil]

/-- **The search for ties** gives every row that is left the aggregate over what is up to it. -/
theorem runningFrom_eq_ok_iff (h : OrderedOn S w.order) (a : RowAggregate) :
    ∀ {front rest : List (Row × Nat)} {s : AggregateState} {values : List (Nat × Scalar)},
      w.Searching S front rest → a.fold a.initial (front.map Prod.fst) = .ok s →
      (w.runningFrom a s (rest.map w.member) = .ok values ↔
        (∃ t, a.fold s (rest.map Prod.fst) = .ok t) ∧ values = rest.map fun p =>
          (p.2, (a.stateOver ((w.upTo (front ++ rest) p).map Prod.fst)).result))
  | front, [], s, values, _, _ => by simp [runningFrom, eq_comm]
  | front, p :: l, s, values, hs, hfold => by
    have hsplit := ties_append_afterTies (w := w) p l
    have hpassed : ∀ {t}, a.fold s ((w.ties p l).map Prod.fst) = .ok t →
        a.fold a.initial ((front ++ w.ties p l).map Prod.fst) = .ok t := by
      intro t ht
      rw [List.map_append, RowAggregate.fold_append, hfold, Result.ok_bind, ht]
    have hties : ∀ {t}, a.fold s ((w.ties p l).map Prod.fst) = .ok t →
        (w.ties p l).map (fun q => (q.2, t.result)) = (w.ties p l).map fun q =>
          (q.2, (a.stateOver ((w.upTo (front ++ p :: l) q).map Prod.fst)).result) := by
      intro t ht
      refine List.map_congr_left fun q hq => ?_
      rw [hs.upTo_eq h hq, RowAggregate.stateOver_of_fold (hpassed ht)]
    have ih : ∀ {t}, a.fold s ((w.ties p l).map Prod.fst) = .ok t → ∀ {values},
        w.runningFrom a t ((w.afterTies p l).map w.member) = .ok values ↔
          (∃ u, a.fold t ((w.afterTies p l).map Prod.fst) = .ok u) ∧
            values = (w.afterTies p l).map fun q =>
              (q.2, (a.stateOver ((w.upTo (front ++ p :: l) q).map Prod.fst)).result) := by
      intro t ht values
      rw [← hsplit, ← List.append_assoc]
      exact runningFrom_eq_ok_iff h a (hs.afterTies h) (hpassed ht)
    rw [runningFrom_cons]
    have hsuccess : (∃ t, a.fold s ((p :: l).map Prod.fst) = .ok t) ↔
        ∃ t, a.fold s ((w.ties p l).map Prod.fst) = .ok t ∧
          ∃ u, a.fold t ((w.afterTies p l).map Prod.fst) = .ok u := by
      rw [← hsplit, List.map_append, RowAggregate.fold_append, Result.exists_bind_eq_ok_iff]
    have hvalues : ∀ f : Row × Nat → Nat × Scalar,
        (p :: l).map f = (w.ties p l).map f ++ (w.afterTies p l).map f := by
      intro f
      rw [← List.map_append, hsplit]
    rw [hsuccess, hvalues]
    simp only [Result.bind_eq_ok_iff, Result.pure_eq_ok, Except.ok.injEq]
    constructor
    · rintro ⟨t, ht, l', hl', rfl⟩
      obtain ⟨hu, rfl⟩ := (ih ht).mp hl'
      exact ⟨⟨t, ht, hu⟩, by rw [hties ht]⟩
    · rintro ⟨⟨t, ht, hu⟩, rfl⟩
      exact ⟨t, ht, _, (ih ht).mpr ⟨hu, rfl⟩, by rw [hties ht]⟩
termination_by _ rest => rest.length
decreasing_by exact Nat.lt_succ_of_le (List.dropWhile_sublist _).length_le

end Searching

/-! ### The values of one partition -/

theorem keyedSort_map_member (l : List (Row × Nat)) :
    Keyed.sort w.orderBy (l.map w.member) =
      (l.mergeSort fun p q => (w.order p q).isLE).map w.member :=
  (List.map_mergeSort (f := w.member) fun _ _ _ _ => rfl).symm

/-- **The values of a partition** are those of its rows. -/
theorem KeysOrdered.partitionValues_eq_ok_iff (h : w.KeysOrdered rows) {k : List Key}
    {values : List (Nat × Scalar)} :
    w.partitionValues ((w.partition rows k).map w.member) = .ok values ↔
      (∀ a, w.function = .aggregate a →
        ∃ s, a.fold a.initial ((w.sorted rows k).map Prod.fst) = .ok s) ∧
      values = (w.sorted rows k).map fun p => (p.2, w.valueAt rows p) := by
  have hsort : Keyed.sort w.orderBy ((w.partition rows k).map w.member) =
      (w.sorted rows k).map w.member := keyedSort_map_member _
  unfold partitionValues
  simp only [hsort]
  cases hf : w.function with
  | rowNumber =>
    have hplaces : (((w.sorted rows k).map w.member).zipIdx).map (fun (p, place) =>
        (p.item.1, Scalar.ofCount place)) =
          (w.sorted rows k).map fun p => (p.2, w.valueAt rows p) := by
      refine List.ext_getElem? fun i => ?_
      simp only [List.getElem?_map, List.getElem?_zipIdx, Option.map_map]
      cases hi : (w.sorted rows k)[i]? with
      | none => rfl
      | some p => simp [valueAt, hf, h.placeOf_getElem? hi, member]
    simp [hplaces, eq_comm]
  | aggregate a =>
    have hsearch : w.Searching (fun p => p.1 ∈ rows) [] (w.sorted rows k) :=
      ⟨fun _ => fst_mem_of_mem_sorted, fun _ hq => (nomatch hq),
        (h.pairwise_sorted k).imp OrderedOn.Before.isLE⟩
    have hframe : (w.sorted rows k).map (fun p =>
        (p.2, (a.stateOver ((w.upTo ([] ++ w.sorted rows k) p).map Prod.fst)).result)) =
          (w.sorted rows k).map fun p => (p.2, w.valueAt rows p) := by
      refine List.map_congr_left fun p hp => ?_
      rw [valueAt, hf, frame, keyOf_of_mem_partition (mem_sorted.mp hp)]
      rfl
    dsimp only
    rw [hsearch.runningFrom_eq_ok_iff h.orderedOn a rfl, hframe]
    simp

/-! ### All partitions -/

/-- The keys of the partitions, in the order of their first rows. -/
def partitionKeys (w : RowWindow) (rows : List Row) : List (List Key) :=
  (rows.map w.keyOf).eraseDups

theorem map_fst_zipIdx {β : Type} (f : Row → β) (rows : List Row) :
    rows.zipIdx.map (fun p => f p.1) = rows.map f := by
  conv_rhs => rw [← List.zipIdx_map_fst 0 rows, List.map_map]
  rfl

theorem sorted_eq_nil {k : List Key} (hk : k ∉ w.partitionKeys rows) : w.sorted rows k = [] := by
  have hnone : w.partition rows k = [] := by
    rw [partition, List.filter_eq_nil_iff]
    intro p hp hpk
    refine hk (List.mem_eraseDups.mpr (List.mem_map.mpr ⟨p.1, ?_, of_decide_eq_true hpk⟩))
    exact List.fst_mem_of_mem_zipIdx hp
  rw [sorted, hnone, List.mergeSort_nil]

theorem ofItems_members (rows : List Row) :
    Grouping.ofItems ((rows.map w.keyOf).zip
      (((rows.map w.sortValues).zip rows.zipIdx).map fun (ks, r, i) => (⟨ks, i, r⟩ : Member))) =
      (w.partitionKeys rows).map fun k => (k, (w.partition rows k).map w.member) := by
  have hitems : (rows.map w.keyOf).zip
      (((rows.map w.sortValues).zip rows.zipIdx).map fun (ks, r, i) => (⟨ks, i, r⟩ : Member)) =
        rows.zipIdx.map fun p => (w.keyOf p.1, w.member p) := by
    rw [← map_fst_zipIdx w.keyOf, ← map_fst_zipIdx w.sortValues, ← List.map_prod_right_eq_zip,
      List.map_map, List.zip_map']
    rfl
  rw [hitems, Grouping.ofItems_eq, partitionKeys, ← map_fst_zipIdx w.keyOf, List.map_map,
    Function.comp_def]
  refine List.map_congr_left fun k _ => ?_
  rw [List.filter_map, List.map_map]
  rfl

theorem lookup_eq_some {β : Type} {i : Nat} {v : β} : ∀ {l : List (Nat × β)}, (i, v) ∈ l →
    (∀ u, (i, u) ∈ l → u = v) → l.lookup i = some v
  | [], hmem, _ => by cases hmem
  | (j, u) :: l, hmem, hunique => by
    rw [List.lookup_cons]
    by_cases hij : i = j
    · subst hij
      rw [beq_self_eq_true]
      exact congrArg some (hunique u List.mem_cons_self)
    · rw [beq_false_of_ne hij]
      refine lookup_eq_some ?_ fun u hu => hunique u (List.mem_cons_of_mem _ hu)
      exact (List.mem_cons.mp hmem).resolve_left fun he => hij (congrArg Prod.fst he)

/-- The values of all partitions, each with the place of its row. -/
def placed (w : RowWindow) (rows : List Row) : List (List (Nat × Scalar)) :=
  (w.partitionKeys rows).map fun k => (w.sorted rows k).map fun p => (p.2, w.valueAt rows p)

theorem mem_flatten_placed {i : Nat} {v : Scalar} : (i, v) ∈ (w.placed rows).flatten ↔
    ∃ p ∈ rows.zipIdx, p.2 = i ∧ w.valueAt rows p = v := by
  simp only [placed, List.mem_flatten, List.mem_map, exists_exists_and_eq_and, Prod.mk.injEq,
    mem_sorted]
  constructor
  · rintro ⟨k, -, p, hp, hpv⟩
    exact ⟨p, (partition_sublist rows k).subset hp, hpv⟩
  · rintro ⟨p, hp, hpv⟩
    have hk : w.keyOf p.1 ∈ w.partitionKeys rows :=
      List.mem_eraseDups.mpr (List.mem_map_of_mem (List.fst_mem_of_mem_zipIdx hp))
    exact ⟨_, hk, p, mem_partition_self hp, hpv⟩

/-- Every row finds its value at its place. -/
theorem lookup_placed {p : Row × Nat} (hp : p ∈ rows.zipIdx) :
    (w.placed rows).flatten.lookup p.2 = some (w.valueAt rows p) := by
  refine lookup_eq_some (mem_flatten_placed.mpr ⟨p, hp, rfl, rfl⟩) fun u hu => ?_
  obtain ⟨q, hq, hqp, rfl⟩ := mem_flatten_placed.mp hu
  have hsome := List.mem_zipIdx_iff_getElem?.mp hq
  rw [hqp, List.mem_zipIdx_iff_getElem?.mp hp] at hsome
  rw [Prod.ext (Option.some.inj hsome) hqp.symm]

theorem map_lookup_placed (rows : List Row) :
    (List.range rows.length).map (fun i => ((w.placed rows).flatten.lookup i).getD .null) =
      rows.zipIdx.map (w.valueAt rows) := by
  have hplaces : List.range rows.length = rows.zipIdx.map Prod.snd := by
    rw [List.zipIdx_map_snd, List.range_eq_range']
  rw [hplaces, List.map_map]
  refine List.map_congr_left fun p hp => ?_
  rw [Function.comp_apply, lookup_placed hp]
  rfl

/-- **The values of a window** are those of the rows, in their order. -/
theorem KeysOrdered.values_eq_ok_iff (h : w.KeysOrdered rows) {values : List Scalar} :
    w.values rows = .ok values ↔
      w.Defined rows ∧ values = rows.zipIdx.map (w.valueAt rows) := by
  have hpartitions : ∀ {ks}, rows.mapM w.partitionKey = .ok ks ↔
      (∀ r ∈ rows, ∀ e ∈ w.partitionBy, ∃ v, e.eval r = .ok v) ∧ ks = rows.map w.keyOf := by
    refine Result.mapM_eq_ok_map_iff fun r _ ks => Result.mapM_eq_ok_map_iff fun e _ k => ?_
    rw [Result.map_eq_ok_iff, RowExpr.valueOn]
    cases e.eval r <;> simp [Except.toOption, eq_comm]
  have hkeys : ∀ {vs}, rows.mapM (SortKey.evalAll w.orderBy) = .ok vs ↔
      (∀ r ∈ rows, ∀ k ∈ w.orderBy, ∃ v, k.expr.eval r = .ok v) ∧ vs = rows.map w.sortValues :=
    Result.mapM_eq_ok_map_iff fun r _ vs => Result.mapM_eq_ok_iff Scalar.null
  have hplaced : ∀ {placed},
      (w.partitionKeys rows).mapM (fun k =>
        w.partitionValues ((w.partition rows k).map w.member)) = .ok placed ↔
      (∀ k ∈ w.partitionKeys rows, ∀ a, w.function = .aggregate a →
        ∃ s, a.fold a.initial ((w.sorted rows k).map Prod.fst) = .ok s) ∧
      placed = w.placed rows :=
    Result.mapM_eq_ok_map_iff fun k _ _ => h.partitionValues_eq_ok_iff
  -- Keys of no row have partitions without rows, over which nothing can fail.
  have hupdates : (∀ k ∈ w.partitionKeys rows, ∀ a, w.function = .aggregate a →
      ∃ s, a.fold a.initial ((w.sorted rows k).map Prod.fst) = .ok s) ↔
        ∀ a, w.function = .aggregate a →
          ∀ k, ∃ s, a.fold a.initial ((w.sorted rows k).map Prod.fst) = .ok s := by
    refine ⟨fun hall a ha k => ?_, fun hall k _ a ha => hall a ha k⟩
    by_cases hk : k ∈ w.partitionKeys rows
    · exact hall k hk a ha
    · refine ⟨a.initial, ?_⟩
      rw [sorted_eq_nil hk]
      rfl
  rw [RowWindow.values]
  simp only [Result.bind_eq_ok_iff, hpartitions, hkeys, Result.pure_eq_ok, Except.ok.injEq]
  constructor
  · rintro ⟨_, ⟨hpartitionBy, rfl⟩, _, ⟨horderBy, rfl⟩, _, hgroups, rfl⟩
    rw [ofItems_members, List.mapM_map] at hgroups
    obtain ⟨hall, rfl⟩ := hplaced.mp hgroups
    exact ⟨⟨hpartitionBy, horderBy, hupdates.mp hall⟩, map_lookup_placed rows⟩
  · rintro ⟨⟨hpartitionBy, horderBy, hall⟩, rfl⟩
    refine ⟨_, ⟨hpartitionBy, rfl⟩, _, ⟨horderBy, rfl⟩, w.placed rows, ?_, map_lookup_placed rows⟩
    rw [ofItems_members, List.mapM_map]
    exact hplaced.mpr ⟨hupdates.mpr hall, rfl⟩

/-! ### Frames -/

/-- The places of the rows of a partition are those up to its size, each once. -/
theorem KeysOrdered.map_placeOf_perm (h : w.KeysOrdered rows) (k : List Key) :
    ((w.partition rows k).map (w.placeOf rows)).Perm (List.range (w.partition rows k).length) := by
  rw [← h.map_placeOf_sorted k]
  exact ((sorted_perm rows k).map _).symm

/-- Rows that tie have one frame. -/
theorem KeysOrdered.frame_eq_of_tie (h : w.KeysOrdered rows) {k : List Key} {p q : Row × Nat}
    (hp : p ∈ w.partition rows k) (hq : q ∈ w.partition rows k) (htie : w.order p q = .eq) :
    w.frame rows p = w.frame rows q := by
  have hmem : ∀ {r}, r ∈ w.partition rows k → r.1 ∈ rows := fun hr =>
    fst_mem_of_mem_sorted (mem_sorted.mpr hr)
  rw [frame, frame, keyOf_of_mem_partition hp, keyOf_of_mem_partition hq]
  refine List.filter_congr fun r hr => ?_
  have hr := fst_mem_of_mem_sorted hr
  rw [h.orderedOn.eq_swap hr (hmem hp), h.orderedOn.eq_swap hr (hmem hq),
    h.orderedOn.congr_left (hmem hp) (hmem hq) hr htie]

/-- Without sort keys the frame of a row is its partition in the order of the input. -/
theorem frame_eq_partition (h : w.orderBy = []) {k : List Key} {p : Row × Nat}
    (hp : p ∈ w.partition rows k) : w.frame rows p = w.partition rows k := by
  have htie : ∀ q r, w.order q r = .eq := by
    intro q r
    rw [order, h]
    rfl
  have hsorted : w.sorted rows k = w.partition rows k := by
    refine List.mergeSort_of_pairwise (List.pairwise_iff_forall_sublist.mpr fun _ => ?_)
    rw [htie]
    rfl
  rw [frame, keyOf_of_mem_partition hp, hsorted, upTo, List.filter_eq_self]
  intro q _
  rw [htie]
  rfl

theorem withColumns_values (ws : List RowWindow) (b : Batch) :
    b.withColumns (ws.map fun w => ⟨w.type, b.rows.zipIdx.map (w.valueAt b.rows)⟩) =
      ⟨b.types ++ ws.map RowWindow.type,
        b.rows.zipIdx.map fun p => p.1 ++ ws.map fun w => w.valueAt b.rows p⟩ := by
  rw [Batch.withColumns, List.map_map]
  refine congrArg (Batch.mk _) (List.map_congr_left fun p hp => ?_)
  have hvalue : ∀ w : RowWindow, (b.rows.zipIdx.map (w.valueAt b.rows)).getD p.2 .null =
      w.valueAt b.rows p := by
    intro w
    have hi : b.rows.zipIdx[p.2]? = some p := by
      rw [List.getElem?_zipIdx, List.mem_zipIdx_iff_getElem?.mp hp]
      simp
    rw [List.getD_eq_getElem?_getD, List.getElem?_map, hi]
    rfl
  simp only [Batch.rowAt, List.map_map, Function.comp_def, hvalue]

/-- **Windows run as their frames say**: the operator succeeds exactly when nothing that it
evaluates fails, and then puts behind every row, in the order of the input, its place in its
partition or the aggregate over its frame. The frame has the rows of the partition up to the row in
their stable order, in which every row is before those that follow; the places of a partition are
those up to its size, each once; rows that tie share a frame, and without sort keys the frame is the
partition as it stands in the input. -/
theorem run_window_eq_frames (ws : List RowWindow) (provider : RowProvider) (types : List DataType)
    (b : Batch) (h : ∀ w ∈ ws, w.KeysOrdered b.rows) :
    (∀ out, (Operator.window ws).run provider types [b] = .ok out ↔
      (∀ w ∈ ws, w.Defined b.rows) ∧ out = ⟨b.types ++ ws.map RowWindow.type,
        b.rows.zipIdx.map fun p => p.1 ++ ws.map fun w => w.valueAt b.rows p⟩) ∧
    ∀ w ∈ ws, ∀ k,
      (w.sorted b.rows k).Perm (w.partition b.rows k) ∧
      (w.sorted b.rows k).Pairwise w.Before ∧
      ((w.partition b.rows k).map (w.placeOf b.rows)).Perm
        (List.range (w.partition b.rows k).length) ∧
      (∀ p ∈ w.partition b.rows k, ∀ q ∈ w.partition b.rows k, w.order p q = .eq →
        w.frame b.rows p = w.frame b.rows q) ∧
      (w.orderBy = [] → ∀ p ∈ w.partition b.rows k,
        w.frame b.rows p = w.partition b.rows k) := by
  refine ⟨fun out => ?_, fun w hw k => ⟨sorted_perm _ k, (h w hw).pairwise_sorted k,
    (h w hw).map_placeOf_perm k, fun _ hp _ hq => (h w hw).frame_eq_of_tie hp hq,
    fun hnone _ => frame_eq_partition hnone⟩⟩
  have hcolumns : ∀ {columns}, ws.mapM (fun w =>
      (w.values b.rows).map (⟨w.type, ·⟩ : _ → Column)) = .ok columns ↔
        (∀ w ∈ ws, w.Defined b.rows) ∧
          columns = ws.map fun w => ⟨w.type, b.rows.zipIdx.map (w.valueAt b.rows)⟩ := by
    refine Result.mapM_eq_ok_map_iff fun w hw column => ?_
    rw [Result.map_eq_ok_iff]
    simp only [(h w hw).values_eq_ok_iff]
    exact ⟨fun ⟨_, ⟨hd, rfl⟩, hc⟩ => ⟨hd, hc.symm⟩, fun ⟨hd, hc⟩ => ⟨_, ⟨hd, rfl⟩, hc.symm⟩⟩
  have hrun : (Operator.window ws).run provider types [b] =
      ws.mapM (fun w => (w.values b.rows).map (⟨w.type, ·⟩ : _ → Column)) >>= fun columns =>
        .ok (b.withColumns columns) := rfl
  rw [hrun, Result.bind_eq_ok_iff]
  simp only [hcolumns, Except.ok.injEq]
  constructor
  · rintro ⟨_, ⟨hd, rfl⟩, rfl⟩
    exact ⟨hd, withColumns_values ws b⟩
  · rintro ⟨hd, rfl⟩
    exact ⟨_, ⟨hd, rfl⟩, withColumns_values ws b⟩

/-- Places from the greatest value down with nulls first, and a running sum from the least value up
in which ties share one sum, over two partitions that alternate. -/
theorem run_window_ties :
    let n : Int → Scalar := fun v => .int .int64 (Bounded.clamp _ _ (by decide) v)
    let places : RowWindow :=
      ⟨.rowNumber, [.column 0 .boolean], [⟨.column 1 .int64, true, true⟩], .int64⟩
    let sums : RowWindow := ⟨.aggregate ⟨.sum, some (.column 1 .int64), .int64⟩,
      [.column 0 .boolean], [⟨.column 1 .int64, false, false⟩], .int64⟩
    let b : Batch := ⟨[.boolean, .int64], [[.null, n 2], [.boolean true, n 1], [.null, n 1],
      [.boolean true, .null], [.null, n 1]]⟩
    (∀ w ∈ [places, sums], w.KeysOrdered b.rows) ∧ (∀ w ∈ [places, sums], w.Defined b.rows) ∧
      b.rows.zipIdx.map (fun p => p.1 ++ [places, sums].map fun w => w.valueAt b.rows p) =
        [[.null, n 2, n 0, n 4], [.boolean true, n 1, n 1, n 1], [.null, n 1, n 1, n 2],
          [.boolean true, .null, n 0, n 1], [.null, n 1, n 2, n 2]] := by
  intro n places sums b
  have hkey : ∀ r ∈ b.rows, (RowExpr.column 1 .int64).valueOn r = Scalar.null ∨
      ((RowExpr.column 1 .int64).valueOn r).family? = some .integer := by
    simp only [b, List.forall_mem_cons]
    exact ⟨.inr rfl, .inr rfl, .inr rfl, .inl rfl, .inr rfl, fun _ h => (nomatch h)⟩
  have h : ∀ w ∈ [places, sums], w.KeysOrdered b.rows := by
    simp only [List.forall_mem_cons]
    refine ⟨fun k hk => ⟨.integer, ?_⟩, fun k hk => ⟨.integer, ?_⟩, fun _ h => (nomatch h)⟩ <;>
      · rw [List.mem_singleton.mp hk]
        exact hkey
  have hrun : (Operator.window [places, sums]).run
      ⟨fun _ => .ok .empty, fun _ => .ok .empty⟩ [] [b] = .ok ⟨[.boolean, .int64, .int64, .int64],
        [[.null, n 2, n 0, n 4], [.boolean true, n 1, n 1, n 1], [.null, n 1, n 1, n 2],
          [.boolean true, .null, n 0, n 1], [.null, n 1, n 2, n 2]]⟩ := by cbv
  obtain ⟨hd, hout⟩ := ((run_window_eq_frames _ _ [] b h).1 _).mp hrun
  exact ⟨h, hd, (congrArg Batch.rows hout).symm⟩

end RowWindow

end TableQuery
