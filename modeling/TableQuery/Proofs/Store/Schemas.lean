import Mathlib.Logic.Relation
import TableQuery.Proofs.Store.Reading

/-! # Schemas of stored tables

Which operations of the store change the schema of a table. One that puts a table under a name is
read back under this name (`lookup_put`) and leaves the tables of other names alone; adding rows to
a table and removing them leave every schema as it is, and only creating and dropping a table change
the schema that is found under its name (`StoreCall.schemaOf_change`). So it is after any number of
calls (`Store.LeadsTo.schemaOf_eq`). -/

namespace TableQuery

namespace Store

/-! ### Tables by name -/

/-- A table that was put in is found. -/
theorem lookup_put (name : String) (t : StoredTable) : ∀ tables : List (String × StoredTable),
    (put name t tables).lookup name = some t
  | [] => by simp [put]
  | (n, u) :: r => by
    rw [put]
    by_cases hn : n = name
    · simp [hn]
    · rw [if_neg hn, List.lookup_cons, beq_false_of_ne (Ne.symm hn)]
      exact lookup_put name t r

theorem find_put (name : String) (t : StoredTable) (tables : List (String × StoredTable)) :
    find ⟨put name t tables⟩ name = .ok t := by
  rw [find, lookup_put]

theorem lookup_put_of_ne {name other : String} (h : other ≠ name) (t : StoredTable) :
    ∀ tables : List (String × StoredTable), (put name t tables).lookup other = tables.lookup other
  | [] => by rw [put, List.lookup_cons, beq_false_of_ne h]
  | (n, u) :: r => by
    rw [put]
    by_cases hn : n = name
    · rw [if_pos hn, List.lookup_cons, List.lookup_cons, hn, beq_false_of_ne h]
    · rw [if_neg hn, List.lookup_cons, List.lookup_cons, lookup_put_of_ne h t r]

theorem find_put_of_ne {name other : String} (h : other ≠ name) (t : StoredTable)
    (tables : List (String × StoredTable)) :
    find ⟨put name t tables⟩ other = find ⟨tables⟩ other := by
  rw [find, find, lookup_put_of_ne h]

theorem lookup_filter_of_ne {name other : String} (h : other ≠ name) :
    ∀ tables : List (String × StoredTable),
      (tables.filter (·.1 ≠ name)).lookup other = tables.lookup other
  | [] => rfl
  | (n, u) :: r => by
    by_cases hn : n = name
    · rw [List.filter_cons_of_neg (by simp [hn]), List.lookup_cons, hn, beq_false_of_ne h]
      exact lookup_filter_of_ne h r
    · rw [List.filter_cons_of_pos (by simpa using hn), List.lookup_cons, List.lookup_cons,
        lookup_filter_of_ne h r]

/-! ### Schemas -/

/-- A table that takes the place of one with the same schema changes no schema. -/
theorem schemaOf_put {s : Store} {name : String} {t u : StoredTable} (ht : s.find name = .ok t)
    (hu : u.schema = t.schema) (other : String) :
    schemaOf ⟨put name u s.tables⟩ other = s.schemaOf other := by
  by_cases h : other = name
  · subst h
    rw [schemaOf, schemaOf, find_put, ht]
    exact congrArg (fun schema => read (.ok schema)) hu
  · rw [schemaOf, schemaOf, find_put_of_ne h]

variable {s : Store} {name other : String}

theorem schemaOf_create (hname : other ≠ name) (schema : Schema) (data : Option Batch)
    (onConflict : OnConflict) :
    (s.create name schema data onConflict).2.schemaOf other = s.schemaOf other := by
  obtain ⟨e, h⟩ | h | ⟨rows, -, h⟩ := s.create_cases name schema data onConflict
  · rw [h]
  · rw [h]
  · rw [h, schemaOf, schemaOf, find_put_of_ne hname]

theorem schemaOf_drop (hname : other ≠ name) (force : Bool) :
    (s.drop name force).2.schemaOf other = s.schemaOf other := by
  rw [drop, schemaOf, schemaOf, find, find, lookup_filter_of_ne hname]

theorem schemaOf_truncate (name other : String) :
    (s.truncate name).2.schemaOf other = s.schemaOf other := by
  obtain ⟨e, h⟩ | ⟨t, ht, h⟩ := s.truncate_cases name
  · rw [h]
  · rw [h]
    exact schemaOf_put (u := ⟨t.schema, noRows t.schema⟩) ht rfl other

theorem schemaOf_insert (name : String) (data : Batch) (other : String) :
    (s.insert name data).2.schemaOf other = s.schemaOf other := by
  obtain ⟨e, h⟩ | ⟨t, rows, ht, -, -, h⟩ := s.insert_cases name data
  · rw [h]
  · rw [h]
    exact schemaOf_put (u := ⟨t.schema, (t.data.append (.ofBatch rows)).2⟩) ht rfl other

/-- An insert that succeeds puts checked rows behind those of the table. -/
theorem insert_eq_ok_iff {data : Batch} {s' : Store} : s.insert name data = (.ok (), s') ↔
    ∃ t rows, s.find name = .ok t ∧ conform name t.schema data = .ok rows ∧
      (t.data.append (.ofBatch rows)).1 = .ok () ∧
      s' = ⟨put name ⟨t.schema, (t.data.append (.ofBatch rows)).2⟩ s.tables⟩ := by
  constructor
  · intro h
    obtain ⟨e, hinsert⟩ | ⟨t, rows, ht, hrows, happend, hinsert⟩ := s.insert_cases name data
    · cases hinsert.symm.trans h
    · cases hinsert.symm.trans h
      exact ⟨t, rows, ht, hrows, happend, rfl⟩
  · rintro ⟨t, rows, ht, hrows, happend, rfl⟩
    simp only [insert, ht, hrows, happend]

/-- An insert that fails leaves the store as it was. -/
theorem insert_of_error {data : Batch} {e : Error} (h : (s.insert name data).1 = .error e) :
    (s.insert name data).2 = s := by
  obtain ⟨_, hinsert⟩ | ⟨_, _, -, -, -, hinsert⟩ := s.insert_cases name data
  · rw [hinsert]
  · rw [hinsert] at h
    cases h

/-- Checked data has as many columns as the table, and its rows are kept if there are any. -/
theorem rows_of_conform {schema : Schema} {data rows : Batch}
    (h : conform name schema data = .ok rows) :
    data.numColumns = schema.size ∧ (schema.fields ≠ [] → rows = data.withTypes schema.types) := by
  unfold conform at h
  split at h
  · cases h
  · rename_i hcount
    split at h <;> cases h
    exact ⟨not_not.mp hcount, fun hfields => if_neg (by simpa using hfields)⟩

end Store

/-! ### Calls -/

/-- The call makes the table of a name anew or removes it. -/
def StoreCall.Redefines (name : String) : StoreCall → Prop
  | create n _ _ _ | drop n _ => name = n
  | _ => False

/-- **A call changes the schema of a table** only by creating or dropping it. -/
theorem StoreCall.schemaOf_change {c : StoreCall} {name : String} (h : ¬ c.Redefines name)
    (s : Store) : (c.change s).2.schemaOf name = s.schemaOf name := by
  cases c with
  | create other schema data onConflict => exact Store.schemaOf_create h schema _ onConflict
  | insert other data => exact Store.schemaOf_insert other data.val name
  | truncate other => exact Store.schemaOf_truncate other name
  | drop other force => exact Store.schemaOf_drop h force

namespace Store

/-- **Stores that calls of some kind lead to**, from one store. -/
def LeadsTo (P : StoreCall → Prop) : Store → Store → Prop :=
  Relation.ReflTransGen fun s s' => ∃ c, P c ∧ (c.change s).2 = s'

namespace LeadsTo

variable {P Q : StoreCall → Prop} {s s' : Store}

theorem of_change {c : StoreCall} (hc : P c) (s : Store) : s.LeadsTo P (c.change s).2 :=
  .single ⟨c, hc, rfl⟩

theorem imp (hPQ : ∀ c, P c → Q c) (h : s.LeadsTo P s') : s.LeadsTo Q s' :=
  Relation.ReflTransGen.mono (fun _ _ ⟨c, hc, hchange⟩ => ⟨c, hPQ c hc, hchange⟩) s s' h

theorem reachable (h : s.LeadsTo P s') (hs : s.Reachable) : s'.Reachable := by
  induction h with
  | refl => exact hs
  | tail _ hstep ih =>
    obtain ⟨c, -, rfl⟩ := hstep
    exact .change ih

/-- Calls that neither create nor drop a table leave its schema as it is. -/
theorem schemaOf_eq {name : String} (h : s.LeadsTo (fun c => ¬ c.Redefines name) s') :
    s'.schemaOf name = s.schemaOf name := by
  induction h with
  | refl => rfl
  | tail _ hstep ih =>
    obtain ⟨c, hc, rfl⟩ := hstep
    rw [c.schemaOf_change hc, ih]

end LeadsTo

end Store

end TableQuery
