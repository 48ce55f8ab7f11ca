import Mathlib.Data.Finset.Card
import Mathlib.Data.Finset.Dedup
import TableQuery.Proofs.Grouping
import TableQuery.Proofs.Schema
import TableQuery.Source

/-! # Texts by their categories

Texts are encoded in one pass, in which the categories grow while the codes are given out. A place
that a code was given for stays the place of the same text when more categories are added behind it,
so that the outcome has a closed form (`foldl_encodeStep`): the categories are the texts without
repetitions, in the order in which they are first seen, and every code is the place of its text,
as far as 32 bits can hold it. With no more categories than codes nothing is cut off, and the texts
are read back as they were (`NativeColumn.ofCategories_readBack`). -/

namespace TableQuery

namespace NativeArray

variable {values : List String} {s : String}

/-! ### The outcome of encoding -/

/-- The code of a text among those that are encoded. -/
def codeOf (values : List String) (s : String) : Nat := values.eraseDups.idxOf s % codeCount

/-- A text that has been seen has the code that it had then. -/
theorem codeOf_concat {t : String} (h : s ∈ values) :
    codeOf (values ++ [t]) s = codeOf values s := by
  by_cases ht : t ∈ values
  · rw [codeOf, codeOf, eraseDups_concat_of_mem ht]
  · rw [codeOf, codeOf, eraseDups_concat_of_not_mem ht,
      List.idxOf_append_of_mem (List.mem_eraseDups.mpr h)]

theorem encodeStep_of_mem (codes : List (Option Nat)) (h : s ∈ values) :
    encodeStep (values.eraseDups, codes) s =
      ((values ++ [s]).eraseDups, codes ++ [some (codeOf (values ++ [s]) s)]) := by
  obtain ⟨place, hplace⟩ : ∃ place, values.eraseDups.idxOf? s = some place :=
    Option.isSome_iff_exists.mp (List.isSome_idxOf?.mpr (List.mem_eraseDups.mpr h))
  have hidx : values.eraseDups.idxOf s = place := by
    rw [List.idxOf_eq_getD_idxOf?, hplace]
    rfl
  rw [encodeStep, hplace, codeOf_concat h, eraseDups_concat_of_mem h, codeOf, hidx]

theorem encodeStep_of_not_mem (codes : List (Option Nat)) (h : s ∉ values) :
    encodeStep (values.eraseDups, codes) s =
      ((values ++ [s]).eraseDups, codes ++ [some (codeOf (values ++ [s]) s)]) := by
  have hnot : s ∉ values.eraseDups := fun hs => h (List.mem_eraseDups.mp hs)
  have hplace : values.eraseDups.idxOf? s = none := List.idxOf?_eq_none_iff.mpr hnot
  rw [encodeStep, hplace, codeOf, eraseDups_concat_of_not_mem h, List.idxOf_append_of_notMem hnot]
  simp

/-- **The encoding of a list of texts**: its different texts, and the code of each. -/
theorem foldl_encodeStep (values : List String) : values.foldl encodeStep ([], []) =
    (values.eraseDups, values.map fun s => some (codeOf values s)) := by
  induction values using List.reverseRecOn with
  | nil => rfl
  | append_singleton values s ih =>
    -- Codes that were given out before keep their meaning.
    have hkept : values.map (fun t => some (codeOf values t)) =
        values.map fun t => some (codeOf (values ++ [s]) t) :=
      List.map_congr_left fun t ht => congrArg some (codeOf_concat ht).symm
    rw [List.foldl_append, ih, List.foldl_cons, List.foldl_nil, List.map_append, ← hkept]
    by_cases h : s ∈ values
    · exact encodeStep_of_mem _ h
    · exact encodeStep_of_not_mem _ h

theorem encode_eq (values : List String) : encode values =
    .categorical values.eraseDups (values.map fun s => some (codeOf values s)) := by
  rw [encode, foldl_encodeStep]

/-! ### Reading back -/

theorem length_eraseDups_eq_card (values : List String) :
    values.eraseDups.length = values.toFinset.card := by
  rw [← List.toFinset_card_of_nodup (nodup_eraseDups values)]
  refine congrArg Finset.card (Finset.ext fun s => ?_)
  rw [List.mem_toFinset, List.mem_toFinset, List.mem_eraseDups]

/-- **Nothing is cut off** a place among categories of which there are no more than codes. -/
theorem getElem?_codeOf (h : values.toFinset.card ≤ codeCount) (hs : s ∈ values) :
    values.eraseDups[codeOf values s]? = some s := by
  have hlt : values.eraseDups.idxOf s < values.eraseDups.length :=
    List.idxOf_lt_length_of_mem (List.mem_eraseDups.mpr hs)
  have hcode : codeOf values s = values.eraseDups.idxOf s :=
    Nat.mod_eq_of_lt (hlt.trans_le (length_eraseDups_eq_card values ▸ h))
  rw [hcode, List.getElem?_eq_getElem hlt, List.getElem_idxOf]

theorem category_codeOf (h : values.toFinset.card ≤ codeCount) (hs : s ∈ values) :
    category values.eraseDups (some (codeOf values s)) = .ok (.utf8 s) := by
  simp only [category, getElem?_codeOf h hs]

theorem scalars_encode (h : values.toFinset.card ≤ codeCount) :
    (encode values).scalars = .ok (values.map Scalar.utf8) := by
  rw [encode_eq, scalars, List.mapM_map]
  exact Result.mapM_eq_ok_map fun s hs => category_codeOf h hs

end NativeArray

namespace NativeColumn

open NativeArray

/-- **Texts by their categories are read back.** A column of texts has a nullable text type,
whatever the texts are. If there are no more different texts than codes, its categories are the
different texts in the order in which they first occur, its codes are places of categories, and its
values are the texts that it was made of. -/
theorem ofCategories_readBack (name : String) (values : List String) :
    (ofCategories name values).inferType = .ok (.base .utf8 true) ∧
    Source.inferSchema ⟨[ofCategories name values]⟩ =
      .ok ⟨[(name, .base .utf8 true)], List.nodup_singleton name⟩ ∧
    (values.toFinset.card ≤ codeCount → ∃ categories codes,
      (ofCategories name values).array = .categorical categories codes ∧
      categories.Nodup ∧ (∀ s, s ∈ categories ↔ s ∈ values) ∧
      categories.Pairwise (fun s t => values.idxOf s < values.idxOf t) ∧
      (∀ code ∈ codes, ∃ place < categories.length, code = some place) ∧
      (ofCategories name values).array.scalars = .ok (values.map .utf8)) := by
  have hschema : Schema.ofFields [(name, .base .utf8 true)] = _ :=
    dif_pos (List.nodup_singleton name)
  refine ⟨rfl, hschema, fun h => ?_⟩
  refine ⟨_, _, encode_eq values, nodup_eraseDups values, fun _ => List.mem_eraseDups,
    pairwise_idxOf_eraseDups values, fun code hcode => ?_, scalars_encode h⟩
  obtain ⟨s, hs, rfl⟩ := List.mem_map.mp hcode
  exact ⟨_, (List.getElem?_eq_some_iff.mp (getElem?_codeOf h hs)).1, rfl⟩

/-- A text that occurs twice. -/
theorem ofCategories_readBack_repeated :
    let values := ["b", "a", "b"]
    values.toFinset.card ≤ codeCount ∧
      (ofCategories "x" values).array = .categorical ["b", "a"] [some 0, some 1, some 0] ∧
      (ofCategories "x" values).array.scalars = .ok [.utf8 "b", .utf8 "a", .utf8 "b"] := by
  intro values
  have h : values.toFinset.card ≤ codeCount := by decide
  obtain ⟨_, _, _, _, _, _, _, hread⟩ := (ofCategories_readBack "x" values).2.2 h
  exact ⟨h, rfl, hread⟩

end NativeColumn

end TableQuery
