import TableQuery.Batch.Columnar
import TableQuery.Proofs.Batch.Layout

/-! # Rows of batches that are held by columns

Every operation on batches keeps the columns as long as the batch (`Aligned`), so that no row is
looked for beyond the end of a column (`Aligned.row?_eq`). What the operations do to columns is then
what the operations on rows do: batches are made of the same rows (`toBatch_ofColumns`,
`toBatch_ofRows`), and an equation for each operation goes from the batch by columns to the batch by
rows (`Built.toBatch_operations`). The tables of the store are extended and queried by columns, and
these equations say which rows are then in them; operators that select rows can be run on columns by
them, too. `Built.rows_under_operations` says what becomes of the rows under any sequence of
operations. Batches without columns are the exception to what one would expect: rows that they do
not have can be selected from them (`not_rows_select`). -/

namespace TableQuery

namespace ColumnBatch

/-- **The columns are as long as the batch.** -/
def Aligned (b : ColumnBatch) : Prop := ∀ c ∈ b.columns, c.values.length = b.numRows

variable {a b : ColumnBatch}

/-! ### Reading rows -/

theorem mapM_getElem?_eq_some {i : Nat} : ∀ {columns : List Column},
    (∀ c ∈ columns, i < c.values.length) →
      (columns.mapM fun c => c.values[i]?) = some (Batch.rowAt columns i)
  | [], _ => rfl
  | c :: columns, h => by
    obtain ⟨hc, hcolumns⟩ := List.forall_mem_cons.mp h
    rw [List.mapM_cons, mapM_getElem?_eq_some hcolumns]
    simp [Batch.rowAt, hc]

theorem Aligned.row?_eq (h : b.Aligned) {i : Nat} (hi : i < b.numRows) :
    b.row? i = some (Batch.rowAt b.columns i) := by
  rw [row?, if_pos hi]
  exact mapM_getElem?_eq_some fun c hc => (h c hc).symm ▸ hi

theorem Aligned.rows_eq (h : b.Aligned) :
    b.rows = (List.range b.numRows).map (Batch.rowAt b.columns) := by
  rw [rows, ← List.filterMap_eq_map]
  exact List.filterMap_congr fun i hi => h.row?_eq (List.mem_range.mp hi)

theorem Aligned.length_rows (h : b.Aligned) : b.rows.length = b.numRows := by
  rw [h.rows_eq, List.length_map, List.length_range]

theorem Aligned.row?_eq_getElem? (h : b.Aligned) (i : Nat) : b.row? i = b.rows[i]? := by
  by_cases hi : i < b.numRows
  · rw [h.row?_eq hi, h.rows_eq, List.getElem?_map, List.getElem?_range hi, Option.map_some]
  · rw [row?, if_neg hi, List.getElem?_eq_none (h.length_rows ▸ Nat.not_lt.mp hi)]

theorem Aligned.rectangular (h : b.Aligned) : b.toBatch.Rectangular := by
  intro r hr
  rw [toBatch, h.rows_eq] at hr
  obtain ⟨i, -, rfl⟩ := List.mem_map.mp hr
  rw [Batch.rowAt, List.length_map, toBatch, List.length_map]

/-! ### Batches of columns -/

theorem aligned_ofCount (n : Nat) : (ofCount n).Aligned := fun _ hc => nomatch hc

theorem toBatch_ofCount (n : Nat) : (ofCount n).toBatch = Batch.ofCount n := by
  have hempty : Batch.rowAt [] = fun _ => [] := rfl
  have hrows : (List.range n).map (Batch.rowAt []) = List.replicate n [] := by
    rw [hempty, List.map_const', List.length_range]
  exact congrArg (Batch.mk []) ((aligned_ofCount n).rows_eq.trans hrows)

/-- Columns make a batch, or the first one of another length is reported. -/
theorem ofColumns_eq (columns : List Column) : ofColumns columns =
    (columns.find? (·.values.length ≠ Batch.columnLength columns)).elim
      (.ok ⟨columns, Batch.columnLength columns⟩)
      fun c => .error (.batch (.columnLengths (Batch.columnLength columns) c.values.length)) := by
  cases columns with
  | nil => rfl
  | cons first rest =>
    have hlength : Batch.columnLength (first :: rest) = first.values.length := rfl
    rw [ofColumns, hlength]
    cases (first :: rest).find? (·.values.length ≠ first.values.length) <;> rfl

theorem ofColumns_eq_ok_iff {columns : List Column} : ofColumns columns = .ok b ↔
    (∀ c ∈ columns, c.values.length = Batch.columnLength columns) ∧
      b = ⟨columns, Batch.columnLength columns⟩ := by
  rw [ofColumns_eq]
  cases hfind : columns.find? (·.values.length ≠ Batch.columnLength columns) with
  | none =>
    have hall : ∀ c ∈ columns, c.values.length = Batch.columnLength columns := by
      simpa [List.find?_eq_none] using hfind
    simp only [Option.elim_none, Except.ok.injEq, eq_comm (a := b)]
    exact ⟨fun h => ⟨hall, h⟩, fun h => h.2⟩
  | some c =>
    have hne : c.values.length ≠ Batch.columnLength columns := by simpa using List.find?_some hfind
    simp only [Option.elim_some, reduceCtorEq, false_iff]
    exact fun h => hne (h.1 c (List.mem_of_find?_eq_some hfind))

theorem aligned_of_ofColumns {columns : List Column} (h : ofColumns columns = .ok b) :
    b.Aligned := by
  obtain ⟨hall, rfl⟩ := ofColumns_eq_ok_iff.mp h
  exact hall

/-- Columns of one length, of which there are any, are a batch of this length. -/
theorem ofColumns_of_length {columns : List Column} {n : Nat} (hne : columns ≠ [])
    (h : ∀ c ∈ columns, c.values.length = n) : ofColumns columns = .ok ⟨columns, n⟩ := by
  obtain ⟨first, rest, rfl⟩ := List.exists_cons_of_ne_nil hne
  have hlength : Batch.columnLength (first :: rest) = n := h first List.mem_cons_self
  exact ofColumns_eq_ok_iff.mpr (hlength.symm ▸ ⟨h, rfl⟩)

/-- **Columns** make the batch of their rows. -/
theorem toBatch_ofColumns (columns : List Column) :
    (ofColumns columns).map toBatch = Batch.ofColumns columns := by
  cases h : ofColumns columns with
  | ok b =>
    have hrows := (aligned_of_ofColumns h).rows_eq
    obtain ⟨hall, rfl⟩ := ofColumns_eq_ok_iff.mp h
    exact (Batch.ofColumns_eq_ok_iff.mpr ⟨hall, congrArg (Batch.mk _) hrows⟩).symm
  | error e =>
    rw [ofColumns_eq] at h
    cases columns with
    | nil => cases h
    | cons first rest =>
      have hlength : Batch.columnLength (first :: rest) = first.values.length := rfl
      rw [hlength] at h
      rw [Batch.ofColumns]
      cases hfind : (first :: rest).find? (·.values.length ≠ first.values.length) with
      | none =>
        rw [hfind] at h
        cases h
      | some c =>
        rw [hfind] at h
        cases h
        rfl

/-! ### Batches of rows -/

/-- **Rows are put into columns** one by one, up to the first that is not as wide as they are. -/
theorem foldlM_addRow {width : Nat} : ∀ {rows : List Row} {columns : List (List Scalar)},
    columns.length = width → rows.foldlM (addRow width) columns =
      (rows.find? (·.length ≠ width)).elim
        (.ok (columns.mapIdx fun j values => values ++ rows.map (·.getD j .null)))
        fun r => .error (.batch (.rowWidth width r.length))
  | [], columns, _ => by
    have hsame : columns.mapIdx (fun j values => values ++ ([] : List Row).map (·.getD j .null)) =
        columns := List.ext_getElem (by simp) fun j _ _ => by simp
    rw [List.foldlM_nil, List.find?_nil, Option.elim_none, hsame]
    rfl
  | r :: rows, columns, hcolumns => by
    rw [List.foldlM_cons, addRow, List.find?_cons]
    by_cases hr : r.length = width
    · have hnext : (List.zipWith (fun values v => values ++ [v]) columns r).length = width := by
        rw [List.length_zipWith, hcolumns, hr, Nat.min_self]
      have hstep : (List.zipWith (fun values v => values ++ [v]) columns r).mapIdx
          (fun j values => values ++ rows.map (·.getD j .null)) =
            columns.mapIdx fun j values => values ++ (r :: rows).map (·.getD j .null) := by
        refine List.ext_getElem (by simp [hcolumns, hr]) fun j hj _ => ?_
        have hjr : j < r.length := by
          rw [List.length_mapIdx, hnext] at hj
          exact hr ▸ hj
        simp [hjr]
      rw [if_neg (not_not.mpr hr), Result.ok_bind, foldlM_addRow hnext, hstep]
      simp [hr]
    · rw [if_pos hr]
      simp [hr]

theorem aligned_ofBatch (b : Batch) : (ofBatch b).Aligned := by
  intro c hc
  obtain ⟨p, -, rfl⟩ := List.mem_map.mp hc
  exact List.length_map _

/-- The rows of columns that rows are read off as. -/
theorem rowAt_columns {b : Batch} (h : b.Rectangular) {i : Nat} {r : Row}
    (hr : b.rows[i]? = some r) : Batch.rowAt b.columns i = r := by
  refine List.ext_getElem ?_ fun j hj hjr => ?_
  · rw [h r (List.mem_of_getElem? hr), Batch.rowAt, List.length_map, Batch.columns, List.length_map,
      List.length_zipIdx]
  · simp [Batch.rowAt, Batch.columns, hr, hjr]

/-- **Rows that are taken apart into columns** are read again. -/
theorem toBatch_ofBatch {b : Batch} (h : b.Rectangular) : (ofBatch b).toBatch = b := by
  refine congrArg₂ Batch.mk (Batch.map_type_columns b) ?_
  rw [(aligned_ofBatch b).rows_eq]
  refine List.ext_getElem (by simp [ofBatch, Batch.numRows]) fun i hi hir => ?_
  rw [List.getElem_map, List.getElem_range]
  exact rowAt_columns h (List.getElem?_eq_getElem hir)

/-- **Columns that are read row by row** are the columns of these rows. -/
theorem Aligned.columns_toBatch (h : b.Aligned) : b.toBatch.columns = b.columns := by
  refine List.ext_getElem? fun j => ?_
  cases hj : b.columns[j]? with
  | none => simp [Batch.columns, List.getElem?_zipIdx, toBatch, hj]
  | some c =>
    refine Batch.columns_getElem?_eq_some_iff.mpr ⟨c.type, by simp [toBatch, hj], ?_⟩
    have hvalues : ∀ i, (Batch.rowAt b.columns i).getD j .null = c.values.getD i .null := by
      simp [Batch.rowAt, hj]
    rw [toBatch, h.rows_eq, ← h c (List.mem_of_getElem? hj), List.map_map]
    simp only [Function.comp_def, hvalues]
    refine congrArg (Column.mk c.type) (List.ext_getElem (by simp) fun i hi _ => ?_)
    have hlt : i < c.values.length := by simpa using hi
    simp [hlt]

theorem Aligned.ofBatch_toBatch (h : b.Aligned) : ofBatch b.toBatch = b :=
  congrArg₂ ColumnBatch.mk h.columns_toBatch h.length_rows

/-- **Rows** make the batch of the columns that they are read off as. -/
theorem ofRows_eq (types : List DataType) (rows : List Row) : ofRows types rows =
    (rows.find? (·.length ≠ types.length)).elim (.ok (ofBatch ⟨types, rows⟩))
      fun r => .error (.batch (.rowWidth types.length r.length)) := by
  rw [ofRows, foldlM_addRow (List.length_replicate ..)]
  cases rows.find? (·.length ≠ types.length) with
  | some r => rfl
  | none =>
    have hcolumns : List.zipWith Column.mk types ((List.replicate types.length []).mapIdx
        fun j values => values ++ rows.map (·.getD j .null)) = (⟨types, rows⟩ : Batch).columns := by
      refine List.ext_getElem (by simp [Batch.columns]) fun j hj _ => ?_
      simp [Batch.columns]
    simp only [Option.elim_none, Result.ok_bind, hcolumns]
    cases types with
    | nil => rfl
    | cons t types =>
      have hne : (⟨t :: types, rows⟩ : Batch).columns ≠ [] := by simp [Batch.columns]
      exact ofColumns_of_length hne (aligned_ofBatch ⟨t :: types, rows⟩)

/-- The rows that a batch is made of are as wide as there are types. -/
theorem ofRows_eq_ok_iff {types : List DataType} {rows : List Row} : ofRows types rows = .ok b ↔
    (⟨types, rows⟩ : Batch).Rectangular ∧ b = ofBatch ⟨types, rows⟩ := by
  rw [ofRows_eq]
  cases hfind : rows.find? (·.length ≠ types.length) with
  | some r =>
    have hr : r.length ≠ types.length := by simpa using List.find?_some hfind
    exact iff_of_false (fun h => nomatch h) fun h => hr (h.1 r (List.mem_of_find?_eq_some hfind))
  | none =>
    have hrect : (⟨types, rows⟩ : Batch).Rectangular := by
      simpa [List.find?_eq_none, Batch.Rectangular] using hfind
    rw [Option.elim_none, Except.ok.injEq, eq_comm]
    exact (and_iff_right hrect).symm

theorem aligned_of_ofRows {types : List DataType} {rows : List Row}
    (h : ofRows types rows = .ok b) :
    b.Aligned ∧ b.columns.map Column.type = types ∧ b.rows = rows := by
  obtain ⟨hrect, rfl⟩ := ofRows_eq_ok_iff.mp h
  have hread := toBatch_ofBatch hrect
  exact ⟨aligned_ofBatch _, congrArg Batch.types hread, congrArg Batch.rows hread⟩

theorem ofRows_isOk (types : List DataType) (rows : List Row) :
    (∃ b, ofRows types rows = .ok b) ↔ ∀ r ∈ rows, r.length = types.length := by
  simp only [ofRows_eq_ok_iff, exists_and_left, exists_eq, and_true, Batch.Rectangular]

/-- **Rows** make the batch of these rows, whether it is held by columns or by rows. -/
theorem toBatch_ofRows (types : List DataType) (rows : List Row) :
    (ofRows types rows).map toBatch = Batch.ofRows types rows := by
  have heq := ofRows_eq types rows
  rw [Batch.ofRows]
  cases hfind : rows.find? (·.length ≠ types.length) with
  | some r =>
    rw [hfind] at heq
    rw [heq]
    rfl
  | none =>
    rw [hfind] at heq
    obtain ⟨-, htypes, hrows⟩ := aligned_of_ofRows heq
    rw [heq]
    exact congrArg Except.ok (congrArg₂ Batch.mk htypes hrows)

/-! ### Selected rows -/

/-- **What is picked one by one** is all there, or the first that is missing is reported. -/
theorem mapM_pick {β : Type} {n : Nat} {f : Nat → Result β} {g : Nat → β} {e : Nat → Error}
    (hok : ∀ i, i < n → f i = .ok (g i)) (herror : ∀ i, n ≤ i → f i = .error (e i)) :
    ∀ positions : List Nat, positions.mapM f =
      (positions.find? (n ≤ ·)).elim (.ok (positions.map g)) fun i => .error (e i)
  | [] => rfl
  | i :: positions => by
    rw [List.mapM_cons, List.find?_cons]
    by_cases hi : n ≤ i
    · rw [herror i hi]
      simp [hi]
    · rw [hok i (Nat.not_le.mp hi), Result.ok_bind, mapM_pick hok herror positions]
      simp only [hi, decide_false]
      cases positions.find? (n ≤ ·) <;> rfl

/-- The values of a column at some positions. -/
def pick (positions : List Nat) (c : Column) : Column :=
  ⟨c.type, positions.map fun i => c.values.getD i .null⟩

theorem aligned_pick (columns : List Column) (positions : List Nat) :
    Aligned ⟨columns.map (pick positions), positions.length⟩ := by
  intro c hc
  obtain ⟨d, -, rfl⟩ := List.mem_map.mp hc
  exact List.length_map _

theorem select_map_some (c : Column) (positions : List Nat) : c.select (positions.map some) =
    (positions.find? (c.values.length ≤ ·)).elim (.ok (pick positions c))
      fun i => .error (.batch (.rowOutOfBounds i c.values.length)) := by
  rw [Column.select, List.mapM_map, mapM_pick (n := c.values.length)
    (g := fun i => c.values.getD i .null)
    (e := fun i => .batch (.rowOutOfBounds i c.values.length))]
  · cases positions.find? (c.values.length ≤ ·) <;> rfl
  · intro i hi
    simp [hi]
  · intro i hi
    simp [hi]

/-- **Rows are taken from every column** alike: the first position beyond the batch is reported by
the first column, if there is one. -/
theorem Aligned.select_eq (h : b.Aligned) (hne : b.columns ≠ []) (positions : List Nat) :
    b.select positions = (positions.find? (b.numRows ≤ ·)).elim
      (.ok ⟨b.columns.map (pick positions), positions.length⟩)
      fun i => .error (.batch (.rowOutOfBounds i b.numRows)) := by
  obtain ⟨columns, n⟩ := b
  obtain ⟨first, rest, rfl⟩ := List.exists_cons_of_ne_nil hne
  have hselect : ∀ c ∈ first :: rest, c.select (positions.map some) =
      (positions.find? (n ≤ ·)).elim (.ok (pick positions c))
        fun i => .error (.batch (.rowOutOfBounds i n)) := by
    intro c hc
    have hn : c.values.length = n := h c hc
    rw [select_map_some, hn]
  simp only [select, List.isEmpty_cons, Bool.false_eq_true, if_false]
  cases hfind : positions.find? (n ≤ ·) with
  | none =>
    have hpick : ((first :: rest).mapM fun c => c.select (positions.map some)) =
        .ok ((first :: rest).map (pick positions)) :=
      Result.mapM_eq_ok_map fun c hc => by rw [hselect c hc, hfind, Option.elim_none]
    rw [hpick, Result.ok_bind, Option.elim_none]
    exact ofColumns_of_length (by simp) (aligned_pick (first :: rest) positions)
  | some i =>
    rw [List.mapM_cons, hselect first List.mem_cons_self, hfind]
    rfl

/-- **The rows at some positions** are there if these positions are, or if there is no column to
read at them; every column is picked from. -/
theorem Aligned.select_eq_ok_iff (h : b.Aligned) {positions : List Nat} :
    b.select positions = .ok a ↔ (b.columns = [] ∨ ∀ i ∈ positions, i < b.numRows) ∧
      a = ⟨b.columns.map (pick positions), positions.length⟩ := by
  by_cases hne : b.columns = []
  · rw [select, if_pos (List.isEmpty_iff.mpr hne), hne, Except.ok.injEq, eq_comm (a := a)]
    exact ⟨fun ha => ⟨.inl rfl, ha⟩, fun ha => ha.2⟩
  · rw [h.select_eq hne]
    cases hfind : positions.find? (b.numRows ≤ ·) with
    | none =>
      have hin : ∀ i ∈ positions, i < b.numRows := by simpa [List.find?_eq_none] using hfind
      rw [Option.elim_none, Except.ok.injEq, eq_comm (a := a)]
      exact ⟨fun ha => ⟨.inr hin, ha⟩, fun ha => ha.2⟩
    | some i =>
      have hi : b.numRows ≤ i := by simpa using List.find?_some hfind
      simp only [Option.elim_some, reduceCtorEq, false_iff]
      rintro ⟨hin | hin, -⟩
      · exact hne hin
      · exact Nat.not_lt.mpr hi (hin i (List.mem_of_find?_eq_some hfind))

theorem rows_pick (columns : List Column) (positions : List Nat) :
    rows ⟨columns.map (pick positions), positions.length⟩ =
      positions.map (Batch.rowAt columns) := by
  rw [(aligned_pick columns positions).rows_eq]
  refine List.ext_getElem (by simp) fun k hk _ => ?_
  have hk : k < positions.length := by simpa using hk
  simp [Batch.rowAt, pick, hk]

theorem Aligned.aligned_of_select (h : b.Aligned) {positions : List Nat}
    (ha : b.select positions = .ok a) : a.Aligned := by
  obtain ⟨-, rfl⟩ := h.select_eq_ok_iff.mp ha
  exact aligned_pick b.columns positions

/-- **Selecting rows** is the same by columns and by rows. -/
theorem Aligned.toBatch_select (h : b.Aligned) (positions : List Nat) :
    (b.select positions).map toBatch = b.toBatch.select positions := by
  by_cases hne : b.columns = []
  · rw [select, Batch.select, if_pos (List.isEmpty_iff.mpr hne),
      if_pos (List.isEmpty_iff.mpr (by rw [toBatch, hne]; rfl))]
    exact congrArg Except.ok (toBatch_ofCount _)
  · have htypes : ¬ b.toBatch.types.isEmpty := by simpa [toBatch] using hne
    rw [h.select_eq hne, Batch.select, if_neg htypes,
      mapM_pick (n := b.numRows) (g := Batch.rowAt b.columns)
        (e := fun i => .batch (.rowOutOfBounds i b.numRows))]
    · cases positions.find? (b.numRows ≤ ·) with
      | none =>
        refine congrArg Except.ok (congrArg₂ Batch.mk ?_ (rows_pick b.columns positions))
        rw [List.map_map]
        rfl
      | some i => rfl
    · intro i hi
      have hrow : b.toBatch.rows[i]? = some (Batch.rowAt b.columns i) :=
        (h.row?_eq_getElem? i).symm.trans (h.row?_eq hi)
      rw [hrow]
    · intro i hi
      have hrow : b.toBatch.rows[i]? = none :=
        List.getElem?_eq_none (h.length_rows.symm ▸ hi)
      have hlength : b.toBatch.rows.length = b.numRows := h.length_rows
      rw [hrow, hlength]

theorem Aligned.select_isOk (h : b.Aligned) (positions : List Nat) :
    (∃ a, b.select positions = .ok a) ↔ b.columns = [] ∨ ∀ i ∈ positions, i < b.numRows := by
  simp only [h.select_eq_ok_iff, exists_and_left, exists_eq, and_true]

theorem lt_of_row?_eq_some {i : Nat} {r : Row} (h : b.row? i = some r) : i < b.numRows := by
  rw [row?] at h
  split at h
  · assumption
  · cases h

/-- **The selected rows** are those at the positions, in their order, unless there are no columns
and some position is beyond the batch. -/
theorem Aligned.rows_select_iff (h : b.Aligned) {positions : List Nat}
    (ha : b.select positions = .ok a) : a.rows.map some = positions.map b.row? ↔
      (b.columns = [] → ∀ i ∈ positions, i < b.numRows) := by
  obtain ⟨hok, rfl⟩ := h.select_eq_ok_iff.mp ha
  rw [rows_pick, List.map_map]
  constructor
  · intro hrows _ i hi
    have hmem : b.row? i ∈ positions.map b.row? := List.mem_map_of_mem hi
    rw [← hrows] at hmem
    obtain ⟨_, -, hrow⟩ := List.mem_map.mp hmem
    exact lt_of_row?_eq_some hrow.symm
  · intro hin
    have hin : ∀ i ∈ positions, i < b.numRows := hok.elim hin id
    exact List.map_congr_left fun i hi => (h.row?_eq (hin i hi)).symm

theorem Aligned.rows_select_of_columns_eq_nil (h : b.Aligned) {positions : List Nat}
    (hnil : b.columns = []) (ha : b.select positions = .ok a) :
    a.rows = List.replicate positions.length [] := by
  obtain ⟨-, rfl⟩ := h.select_eq_ok_iff.mp ha
  rw [rows_pick, hnil, ← List.map_const']
  rfl

/-! ### Slices -/

/-- **The positions of a slice** are those of the batch without the first ones, up to the limit. A
sum of counts that is too great for one is beyond every batch. -/
theorem slicePositions_eq {n : Nat} (hn : n ≤ maxCount) (offset : Nat) (limit : Option Nat) :
    slicePositions n offset limit =
      limit.elim ((List.range n).drop offset) ((List.range n).drop offset).take := by
  have hrest : (List.range n).drop offset = List.range' offset (n - offset) := by
    rw [List.range_eq_range', List.drop_range', Nat.mul_one, Nat.zero_add]
  have hstart : ∀ stop, List.range' (min offset stop) (stop - min offset stop) =
      List.range' offset (stop - offset) := by
    intro stop
    rcases Nat.le_total offset stop with h | h
    · rw [Nat.min_eq_left h]
    · rw [Nat.min_eq_right h, Nat.sub_eq_zero_of_le h, Nat.sub_self]
      rfl
  cases limit with
  | none => exact (hstart n).trans hrest.symm
  | some k =>
    have hcount : min (addCounts offset k) n - offset = min k (n - offset) := by
      rw [addCounts]
      omega
    have hlimited : (List.range' offset (n - offset)).take k =
        List.range' offset (min k (n - offset)) := by
      rw [List.range'_eq_map_range, ← List.map_take, List.take_range, ← List.range'_eq_map_range]
    rw [Option.elim_some, hrest, hlimited, ← hcount]
    exact hstart _

theorem lt_of_mem_slicePositions {n offset i : Nat} {limit : Option Nat} (hn : n ≤ maxCount)
    (hi : i ∈ slicePositions n offset limit) : i < n := by
  rw [slicePositions_eq hn] at hi
  cases limit with
  | none => exact List.mem_range.mp (List.mem_of_mem_drop hi)
  | some k => exact List.mem_range.mp (List.mem_of_mem_drop (List.mem_of_mem_take hi))

/-- **A slice** is made at all times. -/
theorem Aligned.slice_eq (h : b.Aligned) (hn : b.numRows ≤ maxCount) (offset : Nat)
    (limit : Option Nat) :
    let positions := slicePositions b.numRows offset limit
    b.slice offset limit = .ok ⟨b.columns.map (pick positions), positions.length⟩ :=
  h.select_eq_ok_iff.mpr ⟨.inr fun _ => lt_of_mem_slicePositions hn, rfl⟩

/-- **A slice** has the rows of the batch without the first ones, up to the limit. -/
theorem Aligned.rows_slice (h : b.Aligned) (hn : b.numRows ≤ maxCount) {offset : Nat}
    {limit : Option Nat} (ha : b.slice offset limit = .ok a) :
    a.rows = limit.elim (b.rows.drop offset) (b.rows.drop offset).take := by
  obtain rfl := Except.ok.inj ((h.slice_eq hn offset limit).symm.trans ha)
  rw [rows_pick, slicePositions_eq hn, h.rows_eq]
  cases limit with
  | none => rw [Option.elim_none, Option.elim_none, List.map_drop]
  | some k => rw [Option.elim_some, Option.elim_some, List.map_take, List.map_drop]

theorem Aligned.numRows_slice_le (h : b.Aligned) (hn : b.numRows ≤ maxCount) {offset : Nat}
    {limit : Option Nat} (ha : b.slice offset limit = .ok a) : a.numRows ≤ b.numRows := by
  rw [← (h.aligned_of_select ha).length_rows, ← h.length_rows, h.rows_slice hn ha]
  have hrest : (b.rows.drop offset).length ≤ b.rows.length :=
    (List.drop_sublist ..).length_le
  cases limit with
  | none => exact hrest
  | some k => exact Nat.le_trans (List.take_sublist ..).length_le hrest

/-- **Slicing** is the same by columns and by rows. -/
theorem Aligned.toBatch_slice (h : b.Aligned) (hn : b.numRows ≤ maxCount) (offset : Nat)
    (limit : Option Nat) :
    (b.slice offset limit).map toBatch = .ok (b.toBatch.slice offset limit) := by
  rw [h.slice_eq hn]
  refine congrArg Except.ok (congrArg₂ Batch.mk ?_ ?_)
  · rw [List.map_map]
    rfl
  · rw [h.rows_slice hn (h.slice_eq hn offset limit)]
    cases limit <;> rfl

/-! ### Batches put behind one another -/

/-- **The rows of columns that others are put behind**: first those of the columns, then those of
the others. -/
theorem rowAt_zipWith_append {n : Nat} : ∀ {columns others : List Column},
    columns.length = others.length → (∀ c ∈ columns, c.values.length = n) → ∀ i,
      Batch.rowAt (List.zipWith Column.append columns others) i =
        if i < n then Batch.rowAt columns i else Batch.rowAt others (i - n)
  | [], [], _, _, i => by simp [Batch.rowAt]
  | c :: columns, d :: others, hlength, h, i => by
    obtain ⟨hc, hcolumns⟩ := List.forall_mem_cons.mp h
    have hrest := rowAt_zipWith_append (Nat.succ.inj hlength) hcolumns i
    have hfirst : (c.append d).values.getD i .null =
        if i < n then c.values.getD i .null else d.values.getD (i - n) .null := by
      simp only [Column.append, List.getD_eq_getElem?_getD, List.getElem?_append, hc]
      split <;> rfl
    simp only [Batch.rowAt, List.zipWith_cons_cons, List.map_cons] at hrest ⊢
    rw [hrest, hfirst]
    split <;> rfl

theorem aligned_zipWith_append (ha : a.Aligned) (hb : b.Aligned) :
    Aligned ⟨List.zipWith Column.append a.columns b.columns, a.numRows + b.numRows⟩ := by
  intro c hc
  obtain ⟨j, hj, rfl⟩ := List.getElem_of_mem hc
  rw [List.length_zipWith] at hj
  rw [List.getElem_zipWith, Column.append, List.length_append, ha _ (List.getElem_mem _),
    hb _ (List.getElem_mem _)]

theorem rows_zipWith_append (ha : a.Aligned) (hb : b.Aligned)
    (hlength : a.columns.length = b.columns.length) :
    rows ⟨List.zipWith Column.append a.columns b.columns, a.numRows + b.numRows⟩ =
      a.rows ++ b.rows := by
  rw [(aligned_zipWith_append ha hb).rows_eq, ha.rows_eq, hb.rows_eq, List.range_add,
    List.map_append, List.map_map]
  congr 1
  · refine List.map_congr_left fun i hi => ?_
    rw [rowAt_zipWith_append hlength ha, if_pos (List.mem_range.mp hi)]
  · refine List.map_congr_left fun i _ => ?_
    rw [Function.comp_apply, rowAt_zipWith_append hlength ha, if_neg (by simp),
      Nat.add_sub_cancel_left]

/-- **Putting a batch behind another** makes it the other one if there is nothing in it, fails if
the batches are not equally wide, and adds rows to every column otherwise. -/
theorem append_cases (a b : ColumnBatch) :
    ((a.columns = [] ∧ a.numRows = 0) ∧ a.append b = (.ok (), b)) ∨
      ((¬ (a.columns = [] ∧ a.numRows = 0) ∧ a.columns.length = b.columns.length) ∧ a.append b =
        (.ok (), ⟨List.zipWith Column.append a.columns b.columns, a.numRows + b.numRows⟩)) ∨
      ((¬ (a.columns = [] ∧ a.numRows = 0) ∧ a.columns.length ≠ b.columns.length) ∧ a.append b =
        (.error (.batch (.columnCounts a.columns.length b.columns.length)), a)) := by
  have hisEmpty : (a.columns.isEmpty && a.numRows == 0) = true ↔
      a.columns = [] ∧ a.numRows = 0 := by
    rw [Bool.and_eq_true, List.isEmpty_iff, beq_iff_eq]
  by_cases hempty : a.columns = [] ∧ a.numRows = 0
  · rw [append, if_pos (hisEmpty.mpr hempty)]
    exact .inl ⟨hempty, rfl⟩
  · rw [append, if_neg (mt hisEmpty.mp hempty)]
    by_cases hlength : a.columns.length = b.columns.length
    · rw [if_neg (not_not.mpr hlength.symm)]
      exact .inr (.inl ⟨⟨hempty, hlength⟩, rfl⟩)
    · rw [if_pos (Ne.symm hlength)]
      exact .inr (.inr ⟨⟨hempty, hlength⟩, rfl⟩)

theorem aligned_append (ha : a.Aligned) (hb : b.Aligned) : (a.append b).2.Aligned := by
  obtain ⟨-, h⟩ | ⟨-, h⟩ | ⟨-, h⟩ := append_cases a b
  · exact h ▸ hb
  · exact h ▸ aligned_zipWith_append ha hb
  · exact h ▸ ha

theorem numRows_append_le (a b : ColumnBatch) : (a.append b).2.numRows ≤ a.numRows + b.numRows := by
  obtain ⟨-, h⟩ | ⟨-, h⟩ | ⟨-, h⟩ := append_cases a b
  · exact h ▸ Nat.le_add_left ..
  · exact h ▸ Nat.le_refl _
  · exact h ▸ Nat.le_add_right ..

theorem rows_append (ha : a.Aligned) (hb : b.Aligned) (hok : (a.append b).1 = .ok ()) :
    (a.append b).2.rows = a.rows ++ b.rows := by
  obtain ⟨⟨-, hn⟩, h⟩ | ⟨⟨-, hlength⟩, h⟩ | ⟨-, h⟩ := append_cases a b
  · have hrows : a.rows = [] := List.eq_nil_of_length_eq_zero (ha.length_rows.trans hn)
    rw [h, hrows, List.nil_append]
  · rw [h]
    exact rows_zipWith_append ha hb hlength
  · rw [h] at hok
    cases hok

theorem append_fst_eq_ok_iff : (a.append b).1 = .ok () ↔
    (a.columns = [] ∧ a.numRows = 0) ∨ a.columns.length = b.columns.length := by
  obtain ⟨hempty, h⟩ | ⟨⟨-, hlength⟩, h⟩ | ⟨⟨hempty, hlength⟩, h⟩ := append_cases a b
  · exact iff_of_true (h ▸ rfl) (.inl hempty)
  · exact iff_of_true (h ▸ rfl) (.inr hlength)
  · rw [h]
    exact iff_of_false nofun (not_or.mpr ⟨hempty, hlength⟩)

/-- A batch that nothing could be put behind is as it was. -/
theorem append_snd_of_error {e : Error} (herror : (a.append b).1 = .error e) :
    (a.append b).2 = a := by
  obtain ⟨-, h⟩ | ⟨-, h⟩ | ⟨-, h⟩ := append_cases a b
  · exact nomatch h ▸ herror
  · exact nomatch h ▸ herror
  · rw [h]

/-- **Putting a batch behind another** is the same by columns and by rows. -/
theorem toBatch_append (ha : a.Aligned) (hb : b.Aligned) :
    (a.append b).1.map (fun _ => (a.append b).2.toBatch) = a.toBatch.append b.toBatch := by
  have hisEmpty : (a.toBatch.types.isEmpty && a.toBatch.rows.isEmpty) = true ↔
      a.columns = [] ∧ a.numRows = 0 := by
    simp [toBatch, ← List.length_eq_zero_iff, ha.length_rows]
  have hwidth : ∀ c : ColumnBatch, c.toBatch.types.length = c.columns.length :=
    fun _ => List.length_map _
  rw [Batch.append, hwidth, hwidth]
  obtain ⟨hempty, h⟩ | ⟨⟨hempty, hlength⟩, h⟩ | ⟨⟨hempty, hlength⟩, h⟩ := append_cases a b
  · rw [h, if_pos (hisEmpty.mpr hempty)]
    rfl
  · have htypes : (List.zipWith Column.append a.columns b.columns).map Column.type =
        a.columns.map Column.type :=
      List.ext_getElem (by simp [hlength]) fun j _ _ => by simp [Column.append]
    rw [h, if_neg (mt hisEmpty.mp hempty), if_neg (not_not.mpr hlength.symm)]
    exact congrArg Except.ok (congrArg₂ Batch.mk htypes (rows_zipWith_append ha hb hlength))
  · rw [h, if_neg (mt hisEmpty.mp hempty), if_pos (Ne.symm hlength)]
    rfl

/-- What is made of the rows of two batches is what their columns hold afterwards. -/
theorem append_eq_ofBatch {all : Batch} (ha : a.Aligned) (hb : b.Aligned)
    (h : a.toBatch.append b.toBatch = .ok all) : a.append b = (.ok (), ofBatch all) := by
  rw [← toBatch_append ha hb] at h
  obtain ⟨_, hok, hall⟩ := Result.map_eq_ok_iff.mp h
  rw [← hall, (aligned_append ha hb).ofBatch_toBatch]
  exact Prod.ext hok rfl

/-! ### Any sequence of operations -/

/-- **The batches that the operations make**, of no more rows than can be counted. -/
inductive Built : ColumnBatch → Prop
  | ofCount {n : Nat} : n ≤ maxCount → Built (ofCount n)
  | ofColumns {columns : List Column} {b : ColumnBatch} :
      ofColumns columns = .ok b → b.numRows ≤ maxCount → Built b
  | ofRows {types : List DataType} {rows : List Row} {b : ColumnBatch} :
      ofRows types rows = .ok b → b.numRows ≤ maxCount → Built b
  | select {a b : ColumnBatch} {positions : List Nat} :
      Built a → a.select positions = .ok b → b.numRows ≤ maxCount → Built b
  | slice {a b : ColumnBatch} {offset : Nat} {limit : Option Nat} :
      Built a → a.slice offset limit = .ok b → Built b
  | append {a b : ColumnBatch} :
      Built a → Built b → a.numRows + b.numRows ≤ maxCount → Built (a.append b).2

/-- **Every operation keeps the columns as long as the batch**, and the rows few enough. -/
theorem Built.invariant (h : b.Built) : b.Aligned ∧ b.numRows ≤ maxCount := by
  induction h with
  | ofCount hn => exact ⟨aligned_ofCount _, hn⟩
  | ofColumns h hn => exact ⟨aligned_of_ofColumns h, hn⟩
  | ofRows h hn => exact ⟨(aligned_of_ofRows h).1, hn⟩
  | select _ h hn ih => exact ⟨ih.1.aligned_of_select h, hn⟩
  | slice _ h ih =>
    exact ⟨ih.1.aligned_of_select h, Nat.le_trans (ih.1.numRows_slice_le ih.2 h) ih.2⟩
  | append _ _ hn iha ihb =>
    exact ⟨aligned_append iha.1 ihb.1, Nat.le_trans (numRows_append_le _ _) hn⟩

/-- **Batches by columns are batches by rows**: what an operation makes of a batch that operations
have made is read as what it makes of the batch by rows. -/
theorem Built.toBatch_operations (h : a.Built) :
    a.toBatch.Rectangular ∧
    (∀ i, a.row? i = a.toBatch.row? i) ∧
    (∀ positions, (a.select positions).map toBatch = a.toBatch.select positions) ∧
    (∀ offset limit, (a.slice offset limit).map toBatch = .ok (a.toBatch.slice offset limit)) ∧
    ∀ b, b.Built →
      (a.append b).1.map (fun _ => (a.append b).2.toBatch) = a.toBatch.append b.toBatch := by
  obtain ⟨haligned, hn⟩ := h.invariant
  exact ⟨haligned.rectangular, haligned.row?_eq_getElem?, haligned.toBatch_select,
    haligned.toBatch_slice hn, fun _ hb => toBatch_append haligned hb.invariant.1⟩

/-- **What becomes of the rows of a batch.** -/
structure RowLaws (a : ColumnBatch) : Prop where
  aligned : a.Aligned
  /-- There is a row at every position within the batch, and none beyond. -/
  length_rows : a.rows.length = a.numRows
  row?_eq : ∀ i, a.row? i = a.rows[i]?
  /-- Positions beyond the batch are refused if there are columns. -/
  select_isOk : ∀ positions, (∃ b, a.select positions = .ok b) ↔
    a.columns = [] ∨ ∀ i ∈ positions, i < a.numRows
  /-- The rows at the positions are selected, except from a batch without columns that does not
  have them all. -/
  rows_select_iff : ∀ {positions : List Nat} {b : ColumnBatch}, a.select positions = .ok b →
    (b.rows.map some = positions.map a.row? ↔
      (a.columns = [] → ∀ i ∈ positions, i < a.numRows))
  /-- Without columns, positions are counted but not looked at. -/
  rows_select_of_columns_eq_nil : ∀ {positions : List Nat} {b : ColumnBatch}, a.columns = [] →
    a.select positions = .ok b → b.rows = List.replicate positions.length []
  /-- A slice can be made of every batch, whatever the offset and the limit. -/
  rows_slice : ∀ (offset : Nat) (limit : Option Nat), ∃ b, a.slice offset limit = .ok b ∧
    b.rows = limit.elim (a.rows.drop offset) (a.rows.drop offset).take
  append_isOk : ∀ b, (a.append b).1 = .ok () ↔
    (a.columns = [] ∧ a.numRows = 0) ∨ a.columns.length = b.columns.length
  rows_append : ∀ {b : ColumnBatch}, b.Built → (a.append b).1 = .ok () →
    (a.append b).2.rows = a.rows ++ b.rows
  /-- A batch that nothing could be put behind is as it was. -/
  append_of_error : ∀ {b : ColumnBatch} {e : Error}, (a.append b).1 = .error e →
    (a.append b).2 = a

theorem Built.rowLaws (h : a.Built) : a.RowLaws where
  aligned := h.invariant.1
  length_rows := h.invariant.1.length_rows
  row?_eq := h.invariant.1.row?_eq_getElem?
  select_isOk positions := h.invariant.1.select_isOk positions
  rows_select_iff hb := h.invariant.1.rows_select_iff hb
  rows_select_of_columns_eq_nil hnil hb := h.invariant.1.rows_select_of_columns_eq_nil hnil hb
  rows_slice offset limit :=
    have hb := h.invariant.1.slice_eq h.invariant.2 offset limit
    ⟨_, hb, h.invariant.1.rows_slice h.invariant.2 hb⟩
  append_isOk _ := append_fst_eq_ok_iff
  rows_append hb := rows_append h.invariant.1 hb.invariant.1
  append_of_error := append_snd_of_error

/-- **Batches of rows hold these rows**, if each is as wide as there are types, and what the
operations make of a batch that they have made has the rows that it should have. Positions that are
selected from a batch without columns are the exception: it may not have them. -/
theorem Built.rows_under_operations (h : a.Built) (types : List DataType) (rows : List Row) :
    ((∃ b, ColumnBatch.ofRows types rows = .ok b) ↔ ∀ r ∈ rows, r.length = types.length) ∧
    (∀ b, ColumnBatch.ofRows types rows = .ok b →
      b.columns.map Column.type = types ∧ b.rows = rows) ∧
    a.RowLaws :=
  ⟨ofRows_isOk types rows, fun _ hb => (aligned_of_ofRows hb).2, h.rowLaws⟩

/-- A slice with the greatest limit, put behind nothing. -/
theorem Built.rows_under_operations_sliced :
    let types : List DataType := [.boolean]
    let rows : List Row := [[.boolean true], [.null], [.boolean false]]
    let nothing : ColumnBatch := ColumnBatch.ofCount 0
    nothing.Built ∧ ∃ b c : ColumnBatch,
      ColumnBatch.ofRows types rows = .ok b ∧ b.rows = rows ∧ b.Built ∧
      b.slice 1 (some maxCount) = .ok c ∧ c.rows = [[.null], [.boolean false]] ∧
      (nothing.append c).2.rows = [[.null], [.boolean false]] := by
  intro types rows nothing
  have hnothing : nothing.Built := .ofCount (Nat.zero_le _)
  obtain ⟨hisOk, hrows, hlaws⟩ := rows_under_operations hnothing types rows
  obtain ⟨b, hb⟩ := hisOk.mpr (by simp [rows, types])
  have hbrows : b.rows = rows := (hrows b hb).2
  have hcount : b.numRows ≤ maxCount := by
    cases hb
    decide
  have hbuilt : b.Built := .ofRows hb hcount
  obtain ⟨c, hc, hcrows⟩ :=
    (rows_under_operations hbuilt types rows).2.2.rows_slice 1 (some maxCount)
  have hcrows : c.rows = [[.null], [.boolean false]] := by
    rw [hcrows, hbrows]
    rfl
  have happend := hlaws.rows_append (.slice hbuilt hc) rfl
  exact ⟨hnothing, b, c, hb, hbrows, hbuilt, hc, hcrows, happend.trans hcrows⟩

/-- Without columns, more rows can be selected than there are. -/
theorem not_rows_select : ¬ ∀ (a b : ColumnBatch) (positions : List Nat), a.Built →
    a.select positions = .ok b → b.rows.map some = positions.map a.row? := by
  intro h
  have hphantom : [some []] = [none] :=
    h (ofCount 0) (ofCount 1) [0] (.ofCount (Nat.zero_le _)) rfl
  cases hphantom

end ColumnBatch

end TableQuery
