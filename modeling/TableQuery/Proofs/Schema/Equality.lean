import Mathlib.Data.List.Nodup
import Mathlib.Data.List.Perm.Subperm
import TableQuery.Proofs.Schema

/-! # Equality of schemas

Two schemas are compared by their sizes and by looking up the columns of the first among those of
the second; nothing is looked up the other way (`sameColumns_iff_subset`). Since no name is
repeated, columns that are all found among as many leave none of these over: equal schemas have the
same columns in some order (`sameColumns_iff_perm_fields`), and give every name the same type
(`sameColumns_iff_type?`). The names alone tell the order, so that schemas are equal in order when
they are equal and their names are in the same order (`sameOrdered_iff`). -/

namespace TableQuery

namespace Schema

variable {a b : Schema}

theorem nodup_fields (s : Schema) : s.fields.Nodup := List.Nodup.of_map Prod.fst s.nodup

theorem sameColumns_iff_subset :
    a.sameColumns b = true ↔ a.size = b.size ∧ a.fields ⊆ b.fields := by
  simp only [sameColumns, Bool.and_eq_true, beq_iff_eq, List.all_eq_true, type?_eq_some_iff]
  exact Iff.rfl

/-- **Equal schemas have the same columns**, in some order. -/
theorem sameColumns_iff_perm_fields : a.sameColumns b = true ↔ a.fields.Perm b.fields := by
  rw [sameColumns_iff_subset]
  constructor
  · rintro ⟨hsize, hsubset⟩
    -- A column that `a` repeated would take up two places here and only one in `b`.
    have hsubperm : a.fields.Subperm b.fields := List.subperm_of_subset a.nodup_fields hsubset
    exact hsubperm.perm_of_length_le (Nat.le_of_eq hsize.symm)
  · intro h
    exact ⟨h.length_eq, h.subset⟩

theorem sameColumns_equivalence : Equivalence fun s t : Schema => s.sameColumns t = true := by
  simp only [sameColumns_iff_perm_fields]
  exact ⟨fun s => .refl s.fields, .symm, .trans⟩

/-- **Equal schemas are read alike**: a name has the same type in both, or none in either. -/
theorem sameColumns_iff_type? :
    a.sameColumns b = true ↔ ∀ name, a.type? name = b.type? name := by
  rw [sameColumns_iff_perm_fields, List.perm_ext_iff_of_nodup a.nodup_fields b.nodup_fields]
  constructor
  · intro h name
    refine Option.ext fun t => ?_
    rw [type?_eq_some_iff, type?_eq_some_iff, h]
  · rintro h ⟨name, t⟩
    rw [← type?_eq_some_iff, ← type?_eq_some_iff, h]

/-- The columns are their names in order, each with its type. -/
theorem fields_eq_map_names (s : Schema) :
    s.fields = s.names.map fun name => (name, (s.type? name).getD .null) := by
  have hfield : ∀ field ∈ s.fields, id field = (field.1, (s.type? field.1).getD .null) := by
    intro field hmem
    have htype : s.type? field.1 = some field.2 := type?_eq_some_iff.mpr hmem
    rw [htype]
    rfl
  calc s.fields = s.fields.map id := (List.map_id s.fields).symm
    _ = s.fields.map fun field => (field.1, (s.type? field.1).getD .null) :=
      List.map_congr_left hfield
    _ = s.names.map fun name => (name, (s.type? name).getD .null) := by
      rw [names, List.map_map]
      rfl

/-- Equality in order is equality with the names in one order. -/
theorem sameOrdered_iff :
    a.sameOrdered b = true ↔ a.sameColumns b = true ∧ a.names = b.names := by
  rw [sameOrdered, beq_iff_eq]
  constructor
  · intro h
    exact ⟨sameColumns_iff_perm_fields.mpr (.of_eq h), congrArg (List.map Prod.fst) h⟩
  · rintro ⟨hsame, hnames⟩
    have htype : a.type? = b.type? := funext (sameColumns_iff_type?.mp hsame)
    rw [a.fields_eq_map_names, b.fields_eq_map_names, hnames, htype]

/-- **Equality is up to the order of the columns.** Two schemas made from columns have these
columns, and are equal exactly when those of one are a permutation of the other's. Being equal is
therefore reflexive, symmetric and transitive; and it is what being equal in order asks for besides
the same order of the names. -/
theorem sameColumns_iff_perm {columns others : List (String × DataType)}
    (ha : ofFields columns = .ok a) (hb : ofFields others = .ok b) :
    (a.fields = columns ∧ b.fields = others) ∧
    (a.sameColumns b = true ↔ a.fields.Perm b.fields) ∧
    Equivalence (fun s t : Schema => s.sameColumns t = true) ∧
    (a.sameOrdered b = true ↔ a.sameColumns b = true ∧ a.names = b.names) := by
  have hfields : a.fields = columns ∧ b.fields = others :=
    ⟨ofFields_eq_ok_iff.mp ha, ofFields_eq_ok_iff.mp hb⟩
  exact ⟨hfields, sameColumns_iff_perm_fields, sameColumns_equivalence, sameOrdered_iff⟩

/-- Three columns, the last of them moved to the front, and then one of them with nulls. -/
theorem sameColumns_iff_perm_rotated :
    let key : String × DataType := ("key", DataType.int64.nonNull)
    let tags : String × DataType := ("tags", .list .utf8 false)
    let seen : String × DataType := ("seen", .timestamp (some "UTC"))
    ∃ a b c, ofFields [key, tags, seen] = .ok a ∧ ofFields [seen, key, tags] = .ok b ∧
      ofFields [seen, ("key", .int64), tags] = .ok c ∧
      a.sameColumns b = true ∧ a.sameOrdered b = false ∧ a.sameColumns c = false := by
  intro key tags seen
  let a : Schema := ⟨[key, tags, seen], by decide⟩
  let b : Schema := ⟨[seen, key, tags], by decide⟩
  let c : Schema := ⟨[seen, ("key", .int64), tags], by decide⟩
  have ha : ofFields [key, tags, seen] = .ok a := ofFields_eq_ok_iff.mpr rfl
  have hb : ofFields [seen, key, tags] = .ok b := ofFields_eq_ok_iff.mpr rfl
  have hc : ofFields [seen, ("key", .int64), tags] = .ok c := ofFields_eq_ok_iff.mpr rfl
  obtain ⟨-, hsame, -, hordered⟩ := sameColumns_iff_perm ha hb
  obtain ⟨-, hother, -, -⟩ := sameColumns_iff_perm ha hc
  refine ⟨a, b, c, ha, hb, hc, hsame.mpr ?_, Bool.eq_false_iff.mpr ?_, Bool.eq_false_iff.mpr ?_⟩
  · exact (List.perm_append_comm : ([key, tags] ++ [seen]).Perm ([seen] ++ [key, tags]))
  · intro h
    have hnames : ["key", "tags", "seen"] = ["seen", "key", "tags"] := (hordered.mp h).2
    exact absurd hnames (by decide)
  · intro h
    have hmem : key ∈ [seen, ("key", .int64), tags] := (hother.mp h).subset List.mem_cons_self
    exact absurd hmem (by decide)

end Schema

end TableQuery
