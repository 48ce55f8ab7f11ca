import TableQuery.Operator.Run
import TableQuery.Proofs.Aggregation.Conforms
import TableQuery.Proofs.Grouping

/-! # Types of windows

A window has the type of what it computes: a place is a count, an aggregate has its own type
(`RowWindow.Typed`). Every value of a window conforms to that type, whether or not its sort keys
order the rows (`Typed.conforms_of_values`): however the rows of a partition are sorted and
whichever of them tie, the state of an aggregate is folded over rows of the input. -/

namespace TableQuery

/-- Groups hold items that they were made of. -/
theorem Grouping.exists_of_mem_ofItems {κ α : Type} [DecidableEq κ] {items : List (κ × α)}
    {g : κ × List α} (hg : g ∈ ofItems items) {x : α} (hx : x ∈ g.2) : ∃ k, (k, x) ∈ items := by
  rw [ofItems_eq] at hg
  obtain ⟨k, -, rfl⟩ := List.mem_map.mp hg
  obtain ⟨⟨l, y⟩, hp, rfl⟩ := List.mem_map.mp hx
  exact ⟨l, (List.mem_filter.mp hp).1⟩

namespace RowWindow

/-- **A window has the type of what it computes**, over rows with columns of the given types. -/
def Typed (types : List DataType) (w : RowWindow) : Prop :=
  match w.function with
  | .rowNumber => ∃ n, w.type = .base (.int .int64) n
  | .aggregate a => w.type = a.type ∧ a.Typed types

variable {w : RowWindow} {types : List DataType} {rows : List Row}

/-- A running aggregate gives values of its type. -/
theorem conforms_of_runningFrom {a : RowAggregate} (ha : a.Typed types) {s : AggregateState}
    {members : List Member} (hs : s.Conforms a.inputType a.type)
    (hmembers : ∀ m ∈ members, List.Forall₂ Scalar.Conforms m.item.2 types)
    {placed : List (Nat × Scalar)} (h : w.runningFrom a s members = .ok placed) :
    ∀ p ∈ placed, p.2.Conforms a.type := by
  induction s, members using runningFrom.induct w generalizing placed with
  | case1 s =>
    rw [runningFrom] at h
    cases h
    exact fun _ hp => nomatch hp
  | case2 s first rest ih =>
    rw [runningFrom] at h
    obtain ⟨t, ht, h⟩ := Result.bind_eq_ok_iff.mp h
    obtain ⟨values, hvalues, h⟩ := Result.bind_eq_ok_iff.mp h
    cases h
    obtain ⟨hfirst, hrest⟩ := List.forall_mem_cons.mp hmembers
    have hpeers : ∀ r ∈ (first :: rest.takeWhile (Keyed.isPeer w.orderBy first)).map (·.item.2),
        List.Forall₂ Scalar.Conforms r types := by
      refine List.forall_mem_map.mpr (List.forall_mem_cons.mpr ⟨hfirst, fun m hm => ?_⟩)
      exact hrest m ((List.takeWhile_sublist _).subset hm)
    have ht := ha.fold_conforms hpeers hs ht
    refine List.forall_mem_append.mpr ⟨List.forall_mem_map.mpr fun _ _ => ht.result, ?_⟩
    exact ih t ht (fun m hm => hrest m ((List.dropWhile_sublist _).subset hm)) hvalues

theorem Typed.conforms_of_partitionValues (hw : w.Typed types) {members : List Member}
    (hmembers : ∀ m ∈ members, List.Forall₂ Scalar.Conforms m.item.2 types)
    {placed : List (Nat × Scalar)} (h : w.partitionValues members = .ok placed) :
    ∀ p ∈ placed, p.2.Conforms w.type := by
  unfold partitionValues at h
  unfold Typed at hw
  split at h
  · rename_i hf
    rw [hf] at hw
    obtain ⟨n, hn⟩ := hw
    cases h
    exact List.forall_mem_map.mpr fun p _ => hn ▸ Scalar.ofCount_conforms p.2 n
  · rename_i a hf
    rw [hf] at hw
    obtain ⟨htype, ha⟩ := hw
    rw [htype]
    exact conforms_of_runningFrom ha ha.initial_conforms
      (fun m hm => hmembers m (List.mem_mergeSort.mp hm)) h

/-- **The values of a window conform** to its type. -/
theorem Typed.conforms_of_values (hw : w.Typed types)
    (hrows : ∀ r ∈ rows, List.Forall₂ Scalar.Conforms r types) {values : List Scalar}
    (h : w.values rows = .ok values) : ∀ v ∈ values, v.Conforms w.type := by
  obtain ⟨partitions, -, h⟩ := Result.bind_eq_ok_iff.mp h
  obtain ⟨keys, -, h⟩ := Result.bind_eq_ok_iff.mp h
  obtain ⟨placed, hplaced, h⟩ := Result.bind_eq_ok_iff.mp h
  cases h
  have hall : ∀ p ∈ placed.flatten, p.2.Conforms w.type := by
    intro p hp
    obtain ⟨values, hvalues, hp⟩ := List.mem_flatten.mp hp
    obtain ⟨g, hg, hgroup⟩ := Result.exists_of_mem_mapM hplaced values hvalues
    refine hw.conforms_of_partitionValues (fun m hm => ?_) hgroup p hp
    obtain ⟨k, hk⟩ := Grouping.exists_of_mem_ofItems hg hm
    obtain ⟨q, hq, rfl⟩ := List.mem_map.mp (List.of_mem_zip hk).2
    exact hrows _ (List.fst_mem_of_mem_zipIdx (List.of_mem_zip hq).2)
  refine List.forall_mem_map.mpr fun i _ => ?_
  cases hi : placed.flatten.lookup i with
  | none => exact .null _
  | some v =>
    obtain ⟨before, after, hplace, -⟩ := List.lookup_eq_some_iff.mp hi
    exact hall (i, v) (by simp [hplace])

end RowWindow

end TableQuery
