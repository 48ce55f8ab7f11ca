import Mathlib.Algebra.BigOperators.Group.List.Basic
import Mathlib.Algebra.GroupWithZero.Nat
import Mathlib.Data.List.Induction
import Mathlib.Data.List.Nodup
import Mathlib.Logic.Function.Basic
import TableQuery.Operator.Grouping

/-! # Groups as a map over their keys

The keys of groups are those of the items without repetitions, in the order in which they are first
seen (`List.eraseDups`). When the content of every group is a function of its key, changing one
group is changing that function at one place (`alterM_map_of_mem`), and the groups that items are
collected in are the items of each key (`ofItems_eq`). -/

namespace TableQuery

/-! ### Keys without repetitions -/

section EraseDups

variable {κ : Type} [BEq κ] [LawfulBEq κ] {ks : List κ} {k : κ}

/-- A key that has been seen is not added again. -/
theorem eraseDups_concat_of_mem (h : k ∈ ks) : (ks ++ [k]).eraseDups = ks.eraseDups := by
  rw [List.eraseDups_append]
  simp [List.removeAll, h]

/-- A new key stands behind the others. -/
theorem eraseDups_concat_of_not_mem (h : k ∉ ks) :
    (ks ++ [k]).eraseDups = ks.eraseDups ++ [k] := by
  rw [List.eraseDups_append]
  simp [List.removeAll, h, List.eraseDups_cons]

theorem nodup_eraseDups (ks : List κ) : ks.eraseDups.Nodup := by
  induction ks using List.reverseRecOn with
  | nil => simp
  | append_singleton ks k ih =>
    by_cases h : k ∈ ks
    · rw [eraseDups_concat_of_mem h]
      exact ih
    · rw [eraseDups_concat_of_not_mem h]
      refine List.nodup_append.mpr ⟨ih, by simp, fun a ha b hb hab => h ?_⟩
      rw [← List.mem_singleton.mp hb, ← hab]
      exact List.mem_eraseDups.mp ha

/-- Keys without repetitions stand in the order of first occurrences. -/
theorem pairwise_idxOf_eraseDups (ks : List κ) :
    ks.eraseDups.Pairwise fun k l => ks.idxOf k < ks.idxOf l := by
  induction ks using List.reverseRecOn with
  | nil => exact .nil
  | append_singleton ks k ih =>
    have hfront : ks.eraseDups.Pairwise fun l m => (ks ++ [k]).idxOf l < (ks ++ [k]).idxOf m := by
      refine ih.imp_of_mem fun hl hm hlt => ?_
      rwa [List.idxOf_append_of_mem (List.mem_eraseDups.mp hl),
        List.idxOf_append_of_mem (List.mem_eraseDups.mp hm)]
    by_cases hk : k ∈ ks
    · rwa [eraseDups_concat_of_mem hk]
    · rw [eraseDups_concat_of_not_mem hk]
      refine List.pairwise_append.mpr ⟨hfront, List.pairwise_singleton _ _, fun l hl m hm => ?_⟩
      have hl := List.mem_eraseDups.mp hl
      rw [List.mem_singleton.mp hm, List.idxOf_append_of_mem hl, List.idxOf_append_of_notMem hk]
      exact Nat.lt_of_lt_of_le (List.idxOf_lt_length_of_mem hl) (Nat.le_add_right _ _)

end EraseDups

section Sum

variable {κ : Type} [DecidableEq κ]

theorem sum_map_ite_eq_count (k : κ) (ks : List κ) :
    (ks.map fun l => if k = l then 1 else 0).sum = ks.count k := by
  induction ks with
  | nil => rfl
  | cons l r ih =>
    rw [List.map_cons, List.sum_cons, ih, List.count_cons]
    by_cases h : k = l
    · simp [h, Nat.add_comm]
    · simp [h, Ne.symm h]

/-- **The lists of the items of each key** hold every item once. -/
theorem sum_length_filter {α : Type} (key : α → κ) {ks : List κ} (hks : ks.Nodup) :
    ∀ {xs : List α}, (∀ x ∈ xs, key x ∈ ks) →
      (ks.map fun k => (xs.filter fun x => key x = k).length).sum = xs.length
  | [], _ => by simp
  | x :: xs, h => by
    have ih := sum_length_filter key hks fun y hy => h y (List.mem_cons_of_mem x hy)
    have hone : (ks.map fun k => if key x = k then 1 else 0).sum = 1 := by
      rw [sum_map_ite_eq_count, List.count_eq_one_of_mem hks (h x List.mem_cons_self)]
    have hcons : ∀ k, ((x :: xs).filter fun y => key y = k).length =
        (if key x = k then 1 else 0) + (xs.filter fun y => key y = k).length := by
      intro k
      by_cases hk : key x = k <;> simp [hk, Nat.add_comm]
    simp only [hcons, List.sum_map_add, hone, ih, List.length_cons, Nat.add_comm]

end Sum

namespace Grouping

variable {κ α β : Type} [DecidableEq κ]

section Alter

variable {m : Type → Type} [Monad m] [LawfulMonad m] {k : κ} {initial : β} {f : β → m β}
  {content : κ → β}

/-- **Changing a group** of those that are given by their keys. -/
theorem alterM_map_of_mem : ∀ {ks : List κ}, ks.Nodup → k ∈ ks →
    alterM k initial f (ks.map fun l => (l, content l)) =
      (fun v => ks.map fun l => (l, Function.update content k v l)) <$> f (content k)
  | l :: r, h, hmem => by
    obtain ⟨hl, hr⟩ := List.nodup_cons.mp h
    rw [List.map_cons, alterM]
    by_cases hk : k = l
    · subst hk
      have hrest : ∀ v, r.map (fun l => (l, Function.update content k v l)) =
          r.map fun l => (l, content l) := by
        intro v
        refine List.map_congr_left fun l hlr => ?_
        rw [Function.update_of_ne (fun he : l = k => hl (he ▸ hlr))]
      simp [hrest]
    · have hkr : k ∈ r := (List.mem_cons.mp hmem).resolve_left hk
      rw [if_neg hk, alterM_map_of_mem hr hkr]
      simp [Function.update_of_ne (Ne.symm hk)]

/-- **Opening a group** behind those that are there. -/
theorem alterM_map_of_not_mem : ∀ {ks : List κ}, k ∉ ks →
    alterM k initial f (ks.map fun l => (l, content l)) =
      (fun v => (ks.map fun l => (l, content l)) ++ [(k, v)]) <$> f initial
  | [], _ => by simp [alterM]
  | l :: r, hmem => by
    obtain ⟨hk, hkr⟩ := not_or.mp fun h => hmem (List.mem_cons.mpr h)
    rw [List.map_cons, alterM, if_neg hk, alterM_map_of_not_mem hkr]
    simp

end Alter

/-- Adding an item is a change of its group. -/
theorem insert_eq_alterM (k : κ) (x : α) : ∀ groups : List (κ × List α),
    insert k x groups = Id.run (alterM k [] (fun xs => pure (xs ++ [x])) groups)
  | [] => rfl
  | (l, xs) :: r => by
    rw [insert, alterM]
    split
    · rfl
    · rw [insert_eq_alterM k x r]
      rfl

/-- **The groups of items** are the items of each key, by the keys in the order of their first
items. -/
theorem ofItems_eq [BEq κ] [LawfulBEq κ] (items : List (κ × α)) :
    ofItems items = (items.map Prod.fst).eraseDups.map fun k =>
      (k, (items.filter fun p => p.1 = k).map Prod.snd) := by
  induction items using List.reverseRecOn with
  | nil => simp [ofItems]
  | append_singleton items p ih =>
    obtain ⟨k, x⟩ := p
    have hlast : ofItems (items ++ [(k, x)]) = insert k x (ofItems items) := by simp [ofItems]
    have hother : ∀ l, l ≠ k → ((items ++ [(k, x)]).filter fun p => p.1 = l).map Prod.snd =
        (items.filter fun p => p.1 = l).map Prod.snd := by
      intro l hl
      simp [Ne.symm hl]
    rw [hlast, ih, insert_eq_alterM, List.map_append, List.map_singleton]
    by_cases hk : k ∈ items.map Prod.fst
    · rw [alterM_map_of_mem (nodup_eraseDups _) (List.mem_eraseDups.mpr hk),
        eraseDups_concat_of_mem hk]
      refine List.map_congr_left fun l _ => ?_
      by_cases hl : l = k
      · simp [hl, pure]
      · rw [Function.update_of_ne hl, hother l hl]
    · rw [alterM_map_of_not_mem (fun h => hk (List.mem_eraseDups.mp h)),
        eraseDups_concat_of_not_mem hk, List.map_append]
      have hnone : items.filter (fun p => p.1 = k) = [] := by
        rw [List.filter_eq_nil_iff]
        intro p hp hpk
        exact hk (List.mem_map.mpr ⟨p, hp, of_decide_eq_true hpk⟩)
      refine congrArg₂ (· ++ ·) (List.map_congr_left fun l hl => ?_) (by simp [hnone, pure])
      rw [hother l fun he => hk (he ▸ List.mem_eraseDups.mp hl)]

end Grouping

end TableQuery
