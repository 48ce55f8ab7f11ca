import TableQuery.Proofs.Batch.Columnar
import TableQuery.Proofs.Schema
import TableQuery.Session.Session

/-! # The invariant of the table store

The tables of a store are created, extended, emptied and removed by calls that may fail. Every table
that stands in the store after any number of calls is sound (`StoredTable.Sound`): it has one column
for each column of its schema, in that order, of its type and with a value for each row, and no null
where the type admits none. A call that fails leaves the session as it was, and one that succeeds
changes no table but the one it names. The main statement is `runCalls_sound`.

What an operation may do is said once for each of them (`Store.create_cases`, `Store.insert_cases`,
`Store.truncate_cases`, `Store.drop_cases`): an error comes with the store as it was, though the
rows of an insert are put behind the table in its place and a table is taken out before anyone asks
whether it was there. Soundness is shown column by column: a table keeps it when checked data is put
in its place or behind its rows. One call keeps it (`StoreCall.sound_of_change`), and so does a
sequence of calls, by induction on the sequence. -/

namespace TableQuery

/-! ### Sound tables -/

/-- **A column of a table**: it has the type of its field, a value for each row, and nulls only
where the type admits them. -/
structure Column.Of (numRows : Nat) (field : String × DataType) (c : Column) : Prop where
  type : c.type = field.2
  length : c.values.length = numRows
  nulls : field.2.nullable = false → .null ∉ c.values

theorem Column.Of.append {m n : Nat} {field : String × DataType} {c d : Column}
    (hc : Column.Of m field c) (hd : Column.Of n field d) :
    Column.Of (m + n) field (c.append d) where
  type := hc.type
  length := by rw [Column.append, List.length_append, hc.length, hd.length]
  nulls hn hnull := (List.mem_append.mp hnull).elim (hc.nulls hn) (hd.nulls hn)

/-- **The columns of a table are those of its schema**, one for each and in its order. -/
def StoredTable.Sound (t : StoredTable) : Prop :=
  List.Forall₂ (Column.Of t.data.numRows) t.schema.fields t.data.columns

namespace StoredTable.Sound

variable {t : StoredTable} {schema : Schema} {a b : ColumnBatch}

/-- **The columns of a sound table are as long as it has rows.** -/
theorem aligned (h : t.Sound) : t.data.Aligned := by
  intro c hc
  obtain ⟨i, hi⟩ := List.getElem?_of_mem hc
  obtain ⟨_, -, hcolumn⟩ := exists_of_forall₂_getElem? (List.Forall₂.flip h) hi
  exact hcolumn.length

/-- **A sound table is laid out by its schema**, read row by row. -/
theorem laidOut (h : t.Sound) : t.data.toBatch.LaidOut t.schema where
  types := (map_eq_map_of_forall₂ (h.imp fun _ _ hcolumn => hcolumn.type.symm)).symm
  rectangular := h.aligned.rectangular

/-- Rows behind the rows of a table. -/
theorem append (ha : StoredTable.Sound ⟨schema, a⟩) (hb : StoredTable.Sound ⟨schema, b⟩) :
    StoredTable.Sound ⟨schema, (a.append b).2⟩ := by
  have hzip : ∀ {fields : List (String × DataType)} {cs ds : List Column},
      List.Forall₂ (Column.Of a.numRows) fields cs → List.Forall₂ (Column.Of b.numRows) fields ds →
        List.Forall₂ (Column.Of (a.numRows + b.numRows)) fields
          (List.zipWith Column.append cs ds) := by
    intro fields cs ds hcs
    induction hcs generalizing ds with
    | nil =>
      rintro ⟨⟩
      exact .nil
    | cons hc _ ih =>
      rintro (_ | ⟨hd, hds⟩)
      exact .cons (hc.append hd) (ih hds)
  obtain ⟨-, h⟩ | ⟨-, h⟩ | ⟨-, h⟩ := ColumnBatch.append_cases a b
  · exact h ▸ hb
  · exact h ▸ hzip ha hb
  · exact h ▸ ha

end StoredTable.Sound

/-! ### Data of a table -/

namespace Store

theorem sound_noRows (schema : Schema) : StoredTable.Sound ⟨schema, noRows schema⟩ := by
  rw [StoredTable.Sound, noRows, Schema.types, List.map_map, List.forall₂_map_right_iff,
    List.forall₂_same]
  exact fun _ _ => ⟨rfl, rfl, fun _ => List.not_mem_nil⟩

/-- **Checked data is sound.** -/
theorem sound_of_conform {name : String} {schema : Schema} {data rows : Batch}
    (h : conform name schema data = .ok rows) : StoredTable.Sound ⟨schema, .ofBatch rows⟩ := by
  unfold conform at h
  split at h
  · cases h
  · rename_i hcount
    have hsize : data.types.length = schema.types.length := by
      simpa [Batch.numColumns, Schema.size, Schema.types] using hcount
    split at h
    · cases h
    · rename_i hfind
      cases h
      split
      · rename_i hempty
        rw [List.isEmpty_iff] at hempty
        rw [StoredTable.Sound, hempty]
        exact .nil
      · refine forall₂_iff_getElem?.mpr ⟨?_, fun i field column hfield hcolumn => ?_⟩
        · simp [ColumnBatch.ofBatch, Batch.columns, Batch.withTypes, Schema.types]
        · obtain ⟨u, hu, rfl⟩ := Batch.columns_getElem?_eq_some_iff.mp hcolumn
          obtain rfl : field.2 = u := by
            rw [Batch.withTypes, Schema.types, List.getElem?_map, hfield] at hu
            exact Option.some.inj hu
          refine ⟨rfl, List.length_map _, fun hn hnull => ?_⟩
          -- The column is among those that the check went through.
          have hlt : i < data.types.length := by
            rw [hsize, Schema.types, List.length_map]
            exact (List.getElem?_eq_some_iff.mp hfield).1
          have hchecked := Batch.columns_getElem?_eq_some_iff.mpr
            ⟨_, List.getElem?_eq_getElem hlt, rfl⟩
          have hpair : (schema.fields.zip data.columns)[i]? = some (field, _) :=
            List.getElem?_zip_eq_some.mpr ⟨hfield, hchecked⟩
          refine List.find?_eq_none.mp hfind _ (List.mem_of_getElem? hpair) ?_
          simp only [hn, Bool.not_false, Bool.true_and, List.any_eq_true]
          exact ⟨_, hnull, Scalar.isNull_iff.mpr rfl⟩

/-- The first rows of a table are checked data or none. -/
theorem firstRows_eq_ok_iff {name : String} {schema : Schema} {data : Option Batch}
    {rows : ColumnBatch} : firstRows name schema data = .ok rows ↔
      (data = none ∧ rows = noRows schema) ∨
        ∃ b checked, data = some b ∧ conform name schema b = .ok checked ∧
          rows = .ofBatch checked := by
  cases data with
  | none => simp [firstRows, eq_comm]
  | some b => simp [firstRows, Result.map_eq_ok_iff, @eq_comm _ rows]

theorem sound_of_firstRows {name : String} {schema : Schema} {data : Option Batch}
    {rows : ColumnBatch} (h : firstRows name schema data = .ok rows) :
    StoredTable.Sound ⟨schema, rows⟩ := by
  obtain ⟨-, rfl⟩ | ⟨b, checked, -, hchecked, rfl⟩ := firstRows_eq_ok_iff.mp h
  · exact sound_noRows schema
  · exact sound_of_conform hchecked

/-! ### Tables by name -/

section Put

variable {name : String} {t : StoredTable} {tables : List (String × StoredTable)}

theorem mem_put {p : String × StoredTable} (h : p ∈ put name t tables) :
    p = (name, t) ∨ p ∈ tables := by
  induction tables with
  | nil => exact .inl (List.mem_singleton.mp h)
  | cons q r ih =>
    rw [put] at h
    split at h
    · rename_i hq
      rcases List.mem_cons.mp h with rfl | h
      · exact .inl (by rw [hq])
      · exact .inr (List.mem_cons_of_mem q h)
    · rcases List.mem_cons.mp h with rfl | h
      · exact .inr List.mem_cons_self
      · exact (ih h).imp_right (List.mem_cons_of_mem q)

/-- Putting a table adds its name, if at all, behind the others. -/
theorem map_fst_put : (put name t tables).map Prod.fst =
    if name ∈ tables.map Prod.fst then tables.map Prod.fst else tables.map Prod.fst ++ [name] := by
  induction tables with
  | nil => rfl
  | cons q r ih =>
    rw [put]
    by_cases hq : q.1 = name
    · simp [hq]
    · rw [if_neg hq, List.map_cons, ih, List.map_cons]
      by_cases hr : name ∈ r.map Prod.fst
      · rw [if_pos hr, if_pos (List.mem_cons_of_mem _ hr)]
      · rw [if_neg hr, if_neg (by simpa [Ne.symm hq] using hr), List.cons_append]

theorem nodup_put (h : (tables.map Prod.fst).Nodup) :
    ((put name t tables).map Prod.fst).Nodup := by
  rw [map_fst_put]
  split
  · exact h
  · rename_i hname
    refine List.nodup_append.mpr ⟨h, by simp, fun a ha b hb hab => ?_⟩
    rw [List.mem_singleton.mp hb] at hab
    exact hname (hab ▸ ha)

/-- The tables of other names stay as they are. -/
theorem filter_put : (put name t tables).filter (·.1 ≠ name) = tables.filter (·.1 ≠ name) := by
  induction tables with
  | nil => simp [put]
  | cons q r ih =>
    rw [put]
    by_cases hq : q.1 = name
    · simp [hq]
    · rw [if_neg hq, List.filter_cons, List.filter_cons, ih]

/-- A table put in its own place changes nothing. -/
theorem put_of_lookup (h : tables.lookup name = some t) : put name t tables = tables := by
  induction tables with
  | nil => cases h
  | cons q r ih =>
    rw [put]
    rw [List.lookup_cons] at h
    by_cases hq : q.1 = name
    · rw [hq, beq_self_eq_true] at h
      cases h
      rw [if_pos hq]
    · rw [beq_false_of_ne (Ne.symm hq)] at h
      rw [if_neg hq, ih h]

theorem find_eq_ok_iff {s : Store} : s.find name = .ok t ↔ s.tables.lookup name = some t := by
  unfold find
  cases s.tables.lookup name <;> simp

theorem mem_of_find {s : Store} (h : s.find name = .ok t) : (name, t) ∈ s.tables := by
  obtain ⟨l₁, l₂, htables, -⟩ := List.lookup_eq_some_iff.mp (find_eq_ok_iff.mp h)
  simp [htables]

end Put

/-- **The store is sound**: its tables have different names and are sound. -/
structure Sound (s : Store) : Prop where
  nodup : (s.tables.map Prod.fst).Nodup
  tables : ∀ p ∈ s.tables, p.2.Sound

theorem sound_empty : Sound empty := ⟨by simp [empty], by simp [empty]⟩

theorem Sound.put {s : Store} (hs : s.Sound) {name : String} {t : StoredTable} (ht : t.Sound) :
    Sound ⟨Store.put name t s.tables⟩ := by
  refine ⟨nodup_put hs.nodup, fun p hp => ?_⟩
  rcases mem_put hp with rfl | hp
  · exact ht
  · exact hs.tables p hp

end Store

/-! ### Operations -/

namespace Store

variable (s : Store) (name : String)

/-- **Creating a table** fails, finds that it may be ignored, or puts the first rows under the
name. -/
theorem create_cases (schema : Schema) (data : Option Batch) (onConflict : OnConflict) :
    (∃ e, s.create name schema data onConflict = (.error e, s)) ∨
      s.create name schema data onConflict = (.ok (), s) ∨
      ∃ rows, firstRows name schema data = .ok rows ∧
        s.create name schema data onConflict = (.ok (), ⟨put name ⟨schema, rows⟩ s.tables⟩) := by
  unfold create
  cases hrows : firstRows name schema data with
  | error e => exact .inl ⟨e, rfl⟩
  | ok rows =>
    dsimp only
    split
    · split
      · exact .inr (.inl rfl)
      · exact .inl ⟨_, rfl⟩
    · exact .inr (.inr ⟨rows, rfl, rfl⟩)

/-- **Adding rows** fails, and then a table that was changed in its place is the one that was there,
or puts checked rows behind those of the table. -/
theorem insert_cases (data : Batch) :
    (∃ e, s.insert name data = (.error e, s)) ∨
      ∃ t rows, s.find name = .ok t ∧ conform name t.schema data = .ok rows ∧
        (t.data.append (.ofBatch rows)).1 = .ok () ∧ s.insert name data =
          (.ok (), ⟨put name ⟨t.schema, (t.data.append (.ofBatch rows)).2⟩ s.tables⟩) := by
  unfold insert
  cases ht : s.find name with
  | error e => exact .inl ⟨_, rfl⟩
  | ok t =>
    dsimp only
    cases hrows : conform name t.schema data with
    | error e => exact .inl ⟨_, rfl⟩
    | ok rows =>
      dsimp only
      cases happend : (t.data.append (.ofBatch rows)).1 with
      | ok u => exact .inr ⟨t, rows, rfl, hrows, happend, rfl⟩
      | error e =>
        rw [ColumnBatch.append_snd_of_error happend, put_of_lookup (find_eq_ok_iff.mp ht)]
        exact .inl ⟨e, rfl⟩

/-- **Emptying a table** fails or puts no rows in its place. -/
theorem truncate_cases :
    (∃ e, s.truncate name = (.error e, s)) ∨
      ∃ t, s.find name = .ok t ∧
        s.truncate name = (.ok (), ⟨put name ⟨t.schema, noRows t.schema⟩ s.tables⟩) := by
  unfold truncate
  cases s.find name with
  | error e => exact .inl ⟨e, rfl⟩
  | ok t => exact .inr ⟨t, rfl, rfl⟩

/-- **Removing a table** fails where there was none, and otherwise takes it out. -/
theorem drop_cases (force : Bool) :
    (∃ e, s.drop name force = (.error e, s)) ∨
      s.drop name force = (.ok (), ⟨s.tables.filter (·.1 ≠ name)⟩) := by
  unfold drop
  split
  · rename_i hcond
    have hnone : s.tables.lookup name = none := by
      rw [Bool.and_eq_true, Option.isNone_iff_eq_none] at hcond
      exact hcond.1
    have hall : s.tables.filter (·.1 ≠ name) = s.tables := by
      rw [List.filter_eq_self]
      intro p hp
      have hne := List.lookup_eq_none_iff.mp hnone p hp
      exact decide_eq_true fun heq => by simp [heq] at hne
    rw [hall]
    exact .inl ⟨_, rfl⟩
  · exact .inr rfl

end Store

/-! ### Calls -/

/-- A call that changes tables. -/
inductive StoreCall where
  | create (name : String) (schema : Schema) (data : Option { b : Batch // b.Rectangular })
      (onConflict : OnConflict)
  | insert (name : String) (data : { b : Batch // b.Rectangular })
  | truncate (name : String)
  | drop (name : String) (force : Bool)

namespace StoreCall

/-- The table that the call names. -/
def table : StoreCall → String
  | create name _ _ _ | insert name _ | truncate name | drop name _ => name

/-- What the call gives, and what it makes of the store. -/
def change : StoreCall → Store → Result Unit × Store
  | create name schema data onConflict, s =>
    Store.lift (s.create name schema (data.map Subtype.val) onConflict)
  | insert name data, s => s.insert name data.val
  | truncate name, s => Store.lift (s.truncate name)
  | drop name force, s => Store.lift (s.drop name force)

/-- The call in a session: its result and the session after it. -/
def runOn (c : StoreCall) (s : Session) : Except Error Unit × Session :=
  (Session.changeStore c.change).run.run s

variable (c : StoreCall) (s : Store)

/-- **What a call does**: it fails and leaves the store alone, or it succeeds and leaves the store
alone, puts a table under the name, which is a sound one in a sound store, or removes the table of
the name. -/
theorem change_cases :
    (∃ e, c.change s = (.error e, s)) ∨ c.change s = (.ok (), s) ∨
      (∃ t : StoredTable, (s.Sound → t.Sound) ∧
        c.change s = (.ok (), ⟨Store.put c.table t s.tables⟩)) ∨
      c.change s = (.ok (), ⟨s.tables.filter (·.1 ≠ c.table)⟩) := by
  cases c with
  | create name schema data onConflict =>
    obtain ⟨e, h⟩ | h | ⟨rows, hrows, h⟩ :=
      s.create_cases name schema (data.map Subtype.val) onConflict
    · exact .inl ⟨_, congrArg Store.lift h⟩
    · exact .inr (.inl (congrArg Store.lift h))
    · exact .inr (.inr (.inl ⟨_, fun _ => Store.sound_of_firstRows hrows, congrArg Store.lift h⟩))
  | insert name data =>
    obtain ⟨e, h⟩ | ⟨t, rows, ht, hrows, -, h⟩ := s.insert_cases name data.val
    · exact .inl ⟨e, h⟩
    · refine .inr (.inr (.inl ⟨_, fun hs => ?_, h⟩))
      have htable : t.Sound := hs.tables _ (Store.mem_of_find ht)
      exact htable.append (Store.sound_of_conform hrows)
  | truncate name =>
    obtain ⟨e, h⟩ | ⟨t, -, h⟩ := s.truncate_cases name
    · exact .inl ⟨_, congrArg Store.lift h⟩
    · exact .inr (.inr (.inl ⟨_, fun _ => Store.sound_noRows t.schema, congrArg Store.lift h⟩))
  | drop name force =>
    obtain ⟨e, h⟩ | h := s.drop_cases name force
    · exact .inl ⟨_, congrArg Store.lift h⟩
    · exact .inr (.inr (.inr (congrArg Store.lift h)))

variable {c s}

/-- One call keeps a store sound. -/
theorem sound_of_change (hs : s.Sound) : (c.change s).2.Sound := by
  obtain ⟨e, h⟩ | h | ⟨t, ht, h⟩ | h := c.change_cases s
  · rwa [h]
  · rwa [h]
  · rw [h]
    exact hs.put (ht hs)
  · rw [h]
    exact ⟨hs.nodup.sublist (List.filter_sublist.map _),
      fun p hp => hs.tables p (List.mem_filter.mp hp).1⟩

/-- **A call that fails leaves the store as it was.** -/
theorem change_of_error {e : Error} (herror : (c.change s).1 = .error e) : (c.change s).2 = s := by
  obtain ⟨_, h⟩ | h | ⟨_, -, h⟩ | h := c.change_cases s
  · rw [h]
  all_goals
    rw [h] at herror
    cases herror

/-- One call leaves the tables of other names alone. -/
theorem filter_change : (c.change s).2.tables.filter (·.1 ≠ c.table) =
    s.tables.filter (·.1 ≠ c.table) := by
  obtain ⟨e, h⟩ | h | ⟨t, -, h⟩ | h := c.change_cases s
  · rw [h]
  · rw [h]
  · rw [h]
    exact Store.filter_put
  · rw [h]
    simp

theorem runOn_eq (c : StoreCall) (s : Session) :
    c.runOn s = ((c.change s.store).1, { s with store := (c.change s.store).2 }) := rfl

end StoreCall

/-- The session after some calls, whether or not they succeed. -/
def Session.runCalls (s : Session) (calls : List StoreCall) : Session :=
  calls.foldl (fun s c => (c.runOn s).2) s

theorem Session.runCalls_keeps_sound {s : Session} (hs : s.store.Sound) (calls : List StoreCall) :
    (s.runCalls calls).store.Sound := by
  induction calls generalizing s with
  | nil => exact hs
  | cons c calls ih => exact ih (s := (c.runOn s).2) (StoreCall.sound_of_change hs)

/-- **The invariant of the store.** After any calls on a new session every table is sound. A call
that fails leaves the session as it was; one that succeeds leaves all other tables as they were. -/
theorem runCalls_sound :
    (∀ (capabilities : Capabilities) (calls : List StoreCall),
      ((Session.start capabilities).runCalls calls).store.Sound) ∧
    ∀ (s : Session) (c : StoreCall),
      (∀ e, (c.runOn s).1 = .error e → (c.runOn s).2 = s) ∧
      ((c.runOn s).1 = .ok () → (c.runOn s).2.store.tables.filter (·.1 ≠ c.table) =
        s.store.tables.filter (·.1 ≠ c.table)) := by
  refine ⟨fun capabilities calls => Session.runCalls_keeps_sound Store.sound_empty calls,
    fun s c => ⟨fun e herror => ?_, fun _ => StoreCall.filter_change⟩⟩
  rw [StoreCall.runOn_eq] at herror ⊢
  rw [StoreCall.change_of_error herror]

/-- A null is refused for a key, after rows without one were added. -/
theorem runCalls_sound_insert :
    let key : DataType := .base (.int .int64) false
    let one : Scalar := .int .int64 ⟨1, by decide, by decide⟩
    let schema : Schema := ⟨[("key", key), ("text", .utf8)], by decide⟩
    let rows : { b : Batch // b.Rectangular } :=
      ⟨⟨[.int64, .utf8], [[one, .null]]⟩, List.forall_mem_singleton.mpr rfl⟩
    let refused : { b : Batch // b.Rectangular } :=
      ⟨⟨[.int64, .utf8], [[one, .null], [.null, .utf8 "a"]]⟩,
        List.forall_mem_cons.mpr ⟨rfl, List.forall_mem_singleton.mpr rfl⟩⟩
    let s := (Session.start ⟨true, .ansi⟩).runCalls
      [.create "u" schema none .error, .create "t" schema none .error, .insert "t" rows,
        .insert "t" refused, .drop "u" false]
    let c := StoreCall.insert "t" refused
    s.store.Sound ∧ s.store.tables = [("t", ⟨schema, .ofBatch ⟨schema.types, [[one, .null]]⟩⟩)] ∧
      (c.runOn s).1 = .error (.store (.nullInColumn "t" "key")) ∧ (c.runOn s).2 = s := by
  intro key one schema rows refused s c
  obtain ⟨hsound, hcalls⟩ := runCalls_sound
  have herror : (c.runOn s).1 = .error (.store (.nullInColumn "t" "key")) := rfl
  exact ⟨hsound _ _, rfl, herror, (hcalls s c).1 _ herror⟩

end TableQuery
