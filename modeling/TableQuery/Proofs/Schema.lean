import TableQuery.Proofs.Result
import TableQuery.Schema

/-! # Names, types and positions of columns

A schema lists its columns; `type?` and `index?` look one up by its name. Since no name is repeated,
both find the same column: its type stands among the types at its position (`types_of_index?`). -/

namespace TableQuery

namespace Schema

theorem idxOf?_of_lookup {name : String} {t : DataType} : ∀ {fields : List (String × DataType)},
    fields.lookup name = some t →
      ∃ i, (fields.map Prod.fst).idxOf? name = some i ∧ (fields.map Prod.snd)[i]? = some t
  | (n, u) :: r, h => by
    rw [List.lookup_cons] at h
    rw [List.map_cons, List.map_cons, List.idxOf?_cons]
    by_cases hn : n = name
    · subst hn
      rw [beq_self_eq_true] at h
      exact ⟨0, by simp, h⟩
    · rw [beq_false_of_ne (Ne.symm hn)] at h
      obtain ⟨i, hi, hti⟩ := idxOf?_of_lookup h
      exact ⟨i + 1, by simp [hn, hi], hti⟩

variable {s : Schema} {name : String} {t : DataType}

/-- A column has its place among the names and its type at that place. -/
theorem index?_of_type? (h : s.type? name = some t) :
    ∃ i, s.index? name = some i ∧ s.types[i]? = some t := idxOf?_of_lookup h

theorem types_getElem?_eq_some_iff {i : Nat} :
    s.types[i]? = some t ↔ ∃ field, s.fields[i]? = some field ∧ field.2 = t := by
  rw [types, List.getElem?_map, Option.map_eq_some_iff]

theorem types_of_index? {i : Nat} (hi : s.index? name = some i) (ht : s.type? name = some t) :
    s.types[i]? = some t := by
  obtain ⟨k, hk, htk⟩ := index?_of_type? ht
  rw [hi] at hk
  cases hk
  exact htk

theorem typeOf_eq_ok_iff : s.typeOf name = .ok t ↔ s.type? name = some t := by
  unfold typeOf
  cases s.type? name <;> simp

theorem lookup_eq_some_iff : ∀ {fields : List (String × DataType)},
    (fields.map Prod.fst).Nodup → (fields.lookup name = some t ↔ (name, t) ∈ fields)
  | [], _ => by simp
  | (n, u) :: r, h => by
    rw [List.map_cons, List.nodup_cons] at h
    rw [List.lookup_cons, List.mem_cons, Prod.mk.injEq]
    by_cases hn : name = n
    · subst hn
      have hnot : (name, t) ∉ r := fun hm => h.1 (List.mem_map.mpr ⟨_, hm, rfl⟩)
      simp [hnot, eq_comm]
    · rw [beq_false_of_ne hn]
      simpa [hn] using lookup_eq_some_iff h.2

/-- A name is looked up among the columns. -/
theorem type?_eq_some_iff : s.type? name = some t ↔ (name, t) ∈ s.fields :=
  lookup_eq_some_iff s.nodup

theorem names_of_index? {i : Nat} (h : s.index? name = some i) : s.names[i]? = some name := by
  obtain ⟨hi, hname, -⟩ := List.idxOf?_eq_some_iff.mp h
  rw [List.getElem?_eq_getElem hi, hname]

/-- **A name has one column**: it is looked up where it stands. -/
theorem index?_type?_iff {i : Nat} :
    s.index? name = some i ∧ s.type? name = some t ↔ s.fields[i]? = some (name, t) := by
  constructor
  · rintro ⟨hi, ht⟩
    have hname := names_of_index? hi
    rw [names, List.getElem?_map, Option.map_eq_some_iff] at hname
    obtain ⟨p, hp, rfl⟩ := hname
    obtain ⟨q, hq, rfl⟩ := types_getElem?_eq_some_iff.mp (types_of_index? hi ht)
    rw [hp] at hq
    cases hq
    exact hp
  · intro h
    have ht : s.type? name = some t := type?_eq_some_iff.mpr (List.mem_of_getElem? h)
    obtain ⟨k, hk, -⟩ := index?_of_type? ht
    have hname : s.names[i]? = some name := by rw [names, List.getElem?_map, h]; rfl
    have hlt : i < s.names.length := (List.getElem?_eq_some_iff.mp hname).1
    -- No other position has the name.
    have hik : i = k := (List.getElem?_inj hlt s.nodup).mp (hname.trans (names_of_index? hk).symm)
    exact ⟨hik ▸ hk, ht⟩

theorem contains_iff : s.contains name = true ↔ ∃ (i : Nat) (t : DataType),
    s.fields[i]? = some (name, t) := by
  rw [contains, List.contains_iff_mem, names, List.mem_map]
  constructor
  · rintro ⟨⟨n, t⟩, hmem, rfl⟩
    obtain ⟨i, hi⟩ := List.getElem?_of_mem hmem
    exact ⟨i, t, hi⟩
  · rintro ⟨i, t, hi⟩
    exact ⟨_, List.mem_of_getElem? hi, rfl⟩

theorem contains_iff_mem_names : s.contains name = true ↔ name ∈ s.names :=
  List.contains_iff_mem

theorem contains_iff_type? : s.contains name = true ↔ ∃ t, s.type? name = some t := by
  simp only [type?_eq_some_iff, contains_iff_mem_names, names, List.mem_map]
  constructor
  · rintro ⟨f, hf, rfl⟩
    exact ⟨f.2, hf⟩
  · rintro ⟨t, ht⟩
    exact ⟨_, ht, rfl⟩

theorem ofFields_eq_ok_iff {fields : List (String × DataType)} :
    ofFields fields = .ok s ↔ s.fields = fields := by
  unfold ofFields
  constructor
  · intro h
    split at h <;> cases h
    rfl
  · rintro rfl
    rw [dif_pos s.nodup]

/-! ### Names that are repeated -/

theorem firstRepeated?_go_append : ∀ {xs : List String} {seen ys : List String}, xs.Nodup →
    (∀ x ∈ xs, x ∉ seen) → firstRepeated?.go seen (xs ++ ys) =
      firstRepeated?.go (xs.reverse ++ seen) ys
  | [], _, _, _, _ => rfl
  | x :: xs, seen, ys, hnodup, hseen => by
    obtain ⟨hx, hxs⟩ := List.nodup_cons.mp hnodup
    obtain ⟨hxseen, hseen⟩ := List.forall_mem_cons.mp hseen
    rw [List.cons_append, firstRepeated?.go, if_neg hxseen, firstRepeated?_go_append hxs,
      List.reverse_cons, List.append_assoc, List.singleton_append]
    intro y hy hmem
    rcases List.mem_cons.mp hmem with rfl | hmem
    · exact hx hy
    · exact hseen y hy hmem

theorem mem_of_firstRepeated?_go {name : String} : ∀ {seen ys : List String},
    firstRepeated?.go seen ys = some name → name ∈ ys
  | seen, y :: ys, h => by
    rw [firstRepeated?.go] at h
    split at h
    · cases h
      exact List.mem_cons_self
    · exact List.mem_cons_of_mem y (mem_of_firstRepeated?_go h)

theorem nodup_of_firstRepeated?_go : ∀ {seen ys : List String},
    firstRepeated?.go seen ys = none → ys.Nodup ∧ ∀ y ∈ ys, y ∉ seen
  | _, [], _ => by simp
  | seen, y :: ys, h => by
    rw [firstRepeated?.go] at h
    split at h
    · cases h
    · rename_i hy
      obtain ⟨hnodup, hseen⟩ := nodup_of_firstRepeated?_go h
      refine ⟨List.nodup_cons.mpr ⟨fun hmem => hseen y hmem List.mem_cons_self, hnodup⟩,
        List.forall_mem_cons.mpr ⟨hy, fun z hz hmem => hseen z hz (List.mem_cons_of_mem y hmem)⟩⟩

/-- No name is repeated exactly when none is found to be. -/
theorem firstRepeated?_eq_none_iff {xs : List String} : firstRepeated? xs = none ↔ xs.Nodup := by
  constructor
  · exact fun h => (nodup_of_firstRepeated?_go h).1
  · intro h
    have hgo : firstRepeated?.go [] (xs ++ []) = firstRepeated?.go (xs.reverse ++ []) [] :=
      firstRepeated?_go_append h fun _ _ => List.not_mem_nil
    rwa [List.append_nil] at hgo

/-- **Columns added to a schema**: there is a schema with them unless one of their names is
repeated, and then the error names one of them. -/
theorem ofFields_append_eq_error {extra : List (String × DataType)}
    (h : ¬ ((s.fields ++ extra).map Prod.fst).Nodup) : ∃ n ∈ extra.map Prod.fst,
      ofFields (s.fields ++ extra) = .error (.schema (.duplicateColumn n)) := by
  have hgo : firstRepeated? ((s.fields ++ extra).map Prod.fst) =
      firstRepeated?.go ((s.fields.map Prod.fst).reverse ++ []) (extra.map Prod.fst) := by
    rw [List.map_append]
    exact firstRepeated?_go_append s.nodup fun _ _ hmem => (nomatch hmem)
  cases hfirst : firstRepeated? ((s.fields ++ extra).map Prod.fst) with
  | none => exact absurd (nodup_of_firstRepeated?_go hfirst).1 h
  | some n =>
    refine ⟨n, mem_of_firstRepeated?_go (hgo.symm.trans hfirst), ?_⟩
    rw [ofFields, dif_neg h, hfirst]
    rfl

/-- Columns keep their types when others are added behind them. -/
theorem typeOf_of_fields_append {w : Schema} {extra : List (String × DataType)}
    (hw : w.fields = s.fields ++ extra) (h : s.typeOf name = .ok t) : w.typeOf name = .ok t := by
  rw [typeOf_eq_ok_iff, type?_eq_some_iff] at h ⊢
  rw [hw]
  exact List.mem_append_left _ h

end Schema

end TableQuery
