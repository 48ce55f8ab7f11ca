import Mathlib.Data.List.Find
import TableQuery.Proofs.Grouping
import TableQuery.Proofs.Session.Ingest
import TableQuery.Proofs.Store.Reading

/-! # Inserting by name

Client data is added to a table in three steps: its names are compared with those of the table, its
columns are put in the order of the table, and the rows are checked and appended. An insert is one
change of the store (`Session.insert_eq_changeStore`), which leaves the store as it was where a step
fails (`Store.insertSource_of_error`). `Source.Fits` says of which data no step fails, in terms of
the data and of the schema of the table alone: the same names, codes that stand for categories,
nulls only where they may be. The rows that come behind those of the table are `Source.rowsOf`,
whose values are found by name.

The main statement is `Session.insert_iff_fits`. Neither the rows nor any error depends on the order
of the data's columns (`Store.batchFor_of_perm`). -/

namespace TableQuery

/-! ### Native columns -/

namespace NativeArray

/-- Codes are places in the list of categories. -/
def CodesInRange : NativeArray → Prop
  | categorical categories codes => ∀ code, some code ∈ codes → code < categories.length
  | _ => True

variable {a : NativeArray} {values : List Scalar}

theorem exists_category_iff {categories : List String} {code : Option Nat} :
    (∃ v, category categories code = .ok v) ↔ ∀ n, code = some n → n < categories.length := by
  cases code with
  | none => simp [category]
  | some n =>
    simp only [category, Option.some.injEq, forall_eq']
    split
    · rename_i text htext
      exact ⟨fun _ => (List.getElem?_eq_some_iff.mp htext).1, fun _ => ⟨_, rfl⟩⟩
    · rename_i hnone
      have hlength := List.getElem?_eq_none_iff.mp hnone
      simp [hlength]

/-- **An array has values** if its codes are in range. -/
theorem exists_scalars_iff : (∃ values, a.scalars = .ok values) ↔ a.CodesInRange := by
  cases a with
  | categorical categories codes =>
    simp only [scalars, CodesInRange]
    constructor
    · rintro ⟨values, h⟩ code hcode
      obtain ⟨v, -, hv⟩ := Result.exists_of_mapM h hcode
      exact exists_category_iff.mp ⟨v, hv⟩ code rfl
    · intro h
      refine Result.exists_mapM_eq_ok fun code hcode => exists_category_iff.mpr ?_
      rintro n rfl
      exact h n hcode
  | _ => simp [scalars, CodesInRange]

theorem length_of_scalars (h : a.scalars = .ok values) : values.length = a.size := by
  cases a with
  | categorical categories codes => exact (Result.forall₂_of_mapM h).length_eq.symm
  | object vs =>
    cases h
    rfl
  | _ =>
    cases h
    exact List.length_map _

end NativeArray

/-! ### Names -/

namespace Session

/-- **The names that one list has and another has not** depend on the order of neither. -/
theorem difference_perm {a a' b b' : List String} (ha : a.Perm a') (hb : b.Perm b') :
    difference a b = difference a' b' := by
  have hmem : ∀ n, n ∈ a.filter (fun n => !b.contains n) ↔
      n ∈ a'.filter fun n => !b'.contains n := by
    intro n
    simp only [List.mem_filter, ha.mem_iff, Bool.not_eq_true', Bool.eq_false_iff, ne_eq,
      List.contains_iff_mem, hb.mem_iff]
  have hperm : (a.filter fun n => !b.contains n).eraseDups.Perm
      (a'.filter fun n => !b'.contains n).eraseDups :=
    (List.perm_ext_iff_of_nodup (nodup_eraseDups _) (nodup_eraseDups _)).mpr fun n => by
      rw [List.mem_eraseDups, List.mem_eraseDups, hmem]
  have hsorted : ∀ ns : List String,
      (ns.mergeSort fun m n => decide (m ≤ n)).Pairwise fun m n => decide (m ≤ n) = true :=
    List.pairwise_mergeSort
      (fun m n o hmn hno => decide_eq_true (String.le_trans (of_decide_eq_true hmn)
        (of_decide_eq_true hno)))
      fun m n => by simpa using String.le_total m n
  refine List.Perm.eq_of_pairwise (fun m n _ _ hmn hnm => ?_) (hsorted _) (hsorted _) ?_
  · exact String.le_antisymm (of_decide_eq_true hmn) (of_decide_eq_true hnm)
  · exact (List.mergeSort_perm _ _).trans (hperm.trans (List.mergeSort_perm _ _).symm)

theorem difference_eq_nil_iff {a b : List String} : difference a b = [] ↔ a ⊆ b := by
  rw [difference, ← List.length_eq_zero_iff, List.length_mergeSort, List.length_eq_zero_iff,
    List.eq_nil_iff_forall_not_mem]
  simp only [List.mem_eraseDups, List.mem_filter, List.contains_iff_mem, Bool.not_eq_true', not_and,
    Bool.eq_false_iff, ne_eq, not_not]
  exact Iff.rfl

variable {table : String} {schema : Schema} {data data' : Source}

/-- **Data has the columns of a schema** if it has their names in any order. -/
theorem checkColumns_eq_ok_iff :
    checkColumns table schema data = .ok () ↔ data.names.Perm schema.names := by
  have hcond : (checkColumns table schema data = .ok ()) ↔
      (schema.names ⊆ data.names ∧ data.names ⊆ schema.names) ∧
        data.names.length = schema.names.length := by
    unfold checkColumns
    simp only [Bool.and_eq_true, List.isEmpty_iff, difference_eq_nil_iff, decide_eq_true_eq]
    split
    · rename_i h
      exact ⟨fun _ => h, fun _ => rfl⟩
    · rename_i h
      exact ⟨fun h' => (nomatch h'), fun h' => absurd h' h⟩
  rw [hcond]
  constructor
  · rintro ⟨⟨hsubset, -⟩, hlength⟩
    exact ((List.subperm_of_subset schema.nodup hsubset).perm_of_length_le hlength.le).symm
  · intro h
    exact ⟨⟨h.symm.subset, h.subset⟩, h.length_eq⟩

/-- The comparison of names, with its error, does not depend on the order of the data's columns. -/
theorem checkColumns_of_perm (h : data'.names.Perm data.names) :
    checkColumns table schema data' = checkColumns table schema data := by
  unfold checkColumns
  rw [difference_perm (List.Perm.refl _) h, difference_perm h (List.Perm.refl _), h.length_eq]

end Session

/-! ### Data by its names -/

namespace Source

/-- The values of the column of a name. -/
def valuesOf (data : Source) (name : String) : List Scalar :=
  ((data.column? name).bind fun c => c.array.scalars.toOption).getD []

/-- **The rows of the data under some names**, each value standing where the name of its column
does. -/
def rowsOf (data : Source) (names : List String) : List Row :=
  (List.range data.numRows).map fun i => names.map fun n => (data.valuesOf n).getD i .null

/-- **Data that a table takes**: its columns have the names of the table's, its codes stand for
categories, and it has nulls only where the types of the table admit them. -/
structure Fits (data : Source) (schema : Schema) : Prop where
  names : data.names.Perm schema.names
  codes : ∀ c ∈ data.columns, c.array.CodesInRange
  nulls : ∀ c ∈ data.columns, ∀ t, schema.type? c.name = some t → t.nullable = false →
    ∀ values, c.array.scalars = .ok values → .null ∉ values

variable {columns others : List NativeColumn} {data data' : Source} {schema : Schema}

/-- Columns make a source if they have one length. -/
theorem ofColumns_eq_ok_iff : ofColumns columns = .ok data ↔
    data.columns = columns ∧ ∀ c ∈ columns, c.array.size = data.numRows := by
  obtain ⟨cs⟩ := data
  cases columns with
  | nil => simp [ofColumns, eq_comm]
  | cons first rest =>
    unfold ofColumns
    dsimp only
    split
    · rename_i c hc
      have hmem := List.mem_of_find?_eq_some hc
      have hne : c.array.size ≠ first.array.size := by simpa using List.find?_some hc
      refine ⟨fun h => (nomatch h), ?_⟩
      rintro ⟨rfl, h⟩
      exact absurd (h c hmem) hne
    · rename_i hnone
      have hall : ∀ c ∈ first :: rest, c.array.size = first.array.size := by
        simpa [List.find?_eq_none] using hnone
      constructor
      · intro h
        cases h
        exact ⟨rfl, hall⟩
      · rintro ⟨rfl, -⟩
        rfl

/-- The columns of a source in another order. -/
theorem exists_ofColumns_of_perm (h : ofColumns columns = .ok data) (hperm : others.Perm columns) :
    ofColumns others = .ok ⟨others⟩ ∧ numRows ⟨others⟩ = data.numRows := by
  obtain ⟨rfl, hsizes⟩ := ofColumns_eq_ok_iff.mp h
  have hnumRows : numRows ⟨others⟩ = data.numRows := by
    cases others with
    | nil => rw [numRows, numRows, hperm.nil_eq.symm]
    | cons c rest => exact hsizes c (hperm.subset List.mem_cons_self)
  refine ⟨ofColumns_eq_ok_iff.mpr ⟨rfl, fun c hc => ?_⟩, hnumRows⟩
  rw [hnumRows]
  exact hsizes c (hperm.subset hc)

/-- A name that is not repeated has one column, wherever it stands. -/
theorem column?_of_perm (hnodup : data.names.Nodup) (hperm : data'.columns.Perm data.columns) :
    data'.column? = data.column? := by
  funext name
  refine List.find?_eq_find?_of_perm hperm ?_
  rintro c ⟨hc, hcn⟩ d ⟨hd, hdn⟩
  exact List.inj_on_of_nodup_map hnodup (hperm.subset hc) (hperm.subset hd)
    ((of_decide_eq_true hcn).trans (of_decide_eq_true hdn).symm)

/-- **The rows do not depend on the order of the columns**, nor does the error. -/
theorem toBatch_of_perm (hnodup : data.names.Nodup) (hperm : data'.columns.Perm data.columns)
    (hnumRows : data'.numRows = data.numRows) : data'.toBatch schema = data.toBatch schema := by
  have hcolumnAs : data'.columnAs = data.columnAs := by
    funext field
    rw [columnAs, columnAs, column?_of_perm hnodup hperm]
  rw [toBatch, toBatch, hcolumnAs, hnumRows]

section Rows

variable (hdata : ofColumns columns = .ok data) (hnames : data.names.Perm schema.names)
include hnames

theorem column?_of_mem {c : NativeColumn} (hc : c ∈ data.columns) :
    data.column? c.name = some c := by
  have hnodup : data.names.Nodup := hnames.symm.nodup schema.nodup
  cases hfound : data.column? c.name with
  | none => exact absurd (List.find?_eq_none.mp hfound c hc) (by simp)
  | some d =>
    have hname : d.name = c.name := by simpa using List.find?_some hfound
    rw [List.inj_on_of_nodup_map hnodup (List.mem_of_find?_eq_some hfound) hc hname]

theorem exists_column?_of_mem {field : String × DataType} (hfield : field ∈ schema.fields) :
    ∃ c ∈ data.columns, c.name = field.1 ∧ data.column? field.1 = some c := by
  obtain ⟨c, hc, hname⟩ := List.mem_map.mp (hnames.symm.subset (List.mem_map_of_mem hfield))
  exact ⟨c, hc, hname, hname ▸ column?_of_mem hnames hc⟩

/-- The values of a column are found under its name. -/
theorem scalars_eq_valuesOf {c : NativeColumn} (hc : c ∈ data.columns)
    (hcodes : c.array.CodesInRange) : c.array.scalars = .ok (data.valuesOf c.name) := by
  obtain ⟨values, hvalues⟩ := NativeArray.exists_scalars_iff.mpr hcodes
  rw [valuesOf, column?_of_mem hnames hc, Option.bind_some, hvalues]
  rfl

/-- A column of a name has values under every type, if its codes are in range. -/
theorem columnAs_eq_ok_iff {field : String × DataType} (hfield : field ∈ schema.fields)
    (column : Column) : data.columnAs field = .ok column ↔
      (∀ c ∈ data.columns, c.name = field.1 → c.array.CodesInRange) ∧
        column = ⟨field.2, data.valuesOf field.1⟩ := by
  obtain ⟨c, hc, hname, hfound⟩ := exists_column?_of_mem hnames hfield
  have hall : (∀ c ∈ data.columns, c.name = field.1 → c.array.CodesInRange) ↔
      c.array.CodesInRange := by
    refine ⟨fun h => h c hc hname, fun h d hd hdn => ?_⟩
    have hsame := column?_of_mem hnames hd
    rw [hdn, hfound] at hsame
    exact Option.some.inj hsame ▸ h
  rw [columnAs, hfound, hall]
  dsimp only
  rw [Result.map_eq_ok_iff, ← NativeArray.exists_scalars_iff]
  constructor
  · rintro ⟨values, hvalues, rfl⟩
    refine ⟨⟨values, hvalues⟩, ?_⟩
    rw [valuesOf, hfound, Option.bind_some, hvalues]
    rfl
  · rintro ⟨⟨values, hvalues⟩, rfl⟩
    refine ⟨values, hvalues, ?_⟩
    rw [valuesOf, hfound, Option.bind_some, hvalues]
    rfl

/-- All columns of a schema have values, if all codes are in range. -/
theorem mapM_columnAs_eq_ok_iff {found : List Column} :
    schema.fields.mapM data.columnAs = .ok found ↔
      (∀ c ∈ data.columns, c.array.CodesInRange) ∧
        found = schema.fields.map fun f => ⟨f.2, data.valuesOf f.1⟩ := by
  rw [Result.mapM_eq_ok_map_iff fun _ hfield => columnAs_eq_ok_iff hnames hfield]
  refine and_congr_left' ⟨fun h c hc => ?_, fun h _ _ c hc _ => h c hc⟩
  obtain ⟨field, hfield, hname⟩ := List.mem_map.mp (hnames.subset (List.mem_map_of_mem hc))
  exact h field hfield c hc hname.symm

include hdata

theorem length_valuesOf (hcodes : ∀ c ∈ data.columns, c.array.CodesInRange)
    {field : String × DataType} (hfield : field ∈ schema.fields) :
    (data.valuesOf field.1).length = data.numRows := by
  obtain ⟨c, hc, hname, -⟩ := exists_column?_of_mem hnames hfield
  obtain ⟨hcolumns, hsizes⟩ := ofColumns_eq_ok_iff.mp hdata
  rw [← hname, NativeArray.length_of_scalars (scalars_eq_valuesOf hnames hc (hcodes c hc))]
  exact hsizes c (hcolumns ▸ hc)

/-- **Data with the names of a schema is turned into its rows under these names**, if its codes are
in range. -/
theorem toBatch_eq_ok_iff {b : Batch} : data.toBatch schema = .ok b ↔
    (∀ c ∈ data.columns, c.array.CodesInRange) ∧
      b = ⟨schema.types, data.rowsOf schema.names⟩ := by
  rw [toBatch, Result.bind_eq_ok_iff]
  simp only [mapM_columnAs_eq_ok_iff hnames, and_assoc, exists_and_left, exists_eq_left]
  refine and_congr_right fun hcodes => ?_
  rw [eq_comm (a := b)]
  suffices h : (if (schema.fields.map fun f => (⟨f.2, data.valuesOf f.1⟩ : Column)).isEmpty then
      return .ofCount data.numRows else Batch.ofColumns (schema.fields.map fun f =>
        ⟨f.2, data.valuesOf f.1⟩) : Result Batch) =
        .ok ⟨schema.types, data.rowsOf schema.names⟩ by
    rw [h, Except.ok.injEq]
  cases hfields : schema.fields with
  | nil =>
    have hempty : data.columns = [] := by
      rw [names, Schema.names, hfields, List.map_nil, List.perm_nil, List.map_eq_nil_iff] at hnames
      exact hnames
    simp [Schema.types, Schema.names, hfields, rowsOf, numRows, hempty, Batch.ofCount]
  | cons field rest =>
    rw [← hfields]
    have hsome :
        (schema.fields.map fun f => (⟨f.2, data.valuesOf f.1⟩ : Column)).isEmpty = false := by
      rw [hfields]
      rfl
    have hlength : Batch.columnLength (schema.fields.map fun f => ⟨f.2, data.valuesOf f.1⟩) =
        data.numRows := by
      rw [hfields]
      exact length_valuesOf hdata hnames hcodes (hfields ▸ List.mem_cons_self)
    rw [hsome, if_neg Bool.false_ne_true, Batch.ofColumns_eq_ok_iff, hlength]
    refine ⟨List.forall_mem_map.mpr fun f hf => length_valuesOf hdata hnames hcodes hf, ?_⟩
    simp [Schema.types, Schema.names, rowsOf, Batch.rowAt, List.map_map, Function.comp_def]

end Rows

end Source

/-! ### One change of the store -/

namespace Store

open Source

/-- **Client data for a table**: its names are compared and its columns are put in order. -/
def batchFor (s : Store) (name : String) (data : Source) : Result Batch := do
  let schema ← s.schemaOf name
  Session.checkColumns name schema data
  data.toBatch schema

/-- **Client data added to a table**: what is made of it is checked and appended. -/
def insertSource (s : Store) (name : String) (data : Source) : Result Unit × Store :=
  match s.batchFor name data with
  | .error e => (.error e, s)
  | .ok b => s.insert name b

/-- Rows behind those of a table. -/
theorem append_eq_ok {schema : Schema} {a b : Batch} (ha : a.types = schema.types)
    (hb : b.types = schema.types) :
    a.append b = .ok ⟨schema.types, a.rows ++ b.rows⟩ := by
  obtain ⟨types, rows⟩ := a
  obtain ⟨types', rows'⟩ := b
  cases ha
  cases hb
  rw [Batch.append]
  split
  · rename_i hempty
    simp only [Bool.and_eq_true, List.isEmpty_iff] at hempty
    rw [hempty.2, List.nil_append]
    rfl
  · exact if_neg (not_not.mpr rfl)

variable {s s' : Store} {name : String} {t : StoredTable} {columns : List NativeColumn}
  {data data' : Source}

/-- The nulls of data are found by the names of a schema. -/
theorem null_notMem_iff {schema : Schema} (hnames : data.names.Perm schema.names)
    (hcodes : ∀ c ∈ data.columns, c.array.CodesInRange) :
    (∀ f ∈ schema.fields, f.2.nullable = false → .null ∉ data.valuesOf f.1) ↔
      ∀ c ∈ data.columns, ∀ t, schema.type? c.name = some t → t.nullable = false →
        ∀ values, c.array.scalars = .ok values → .null ∉ values := by
  constructor
  · intro h c hc t ht hn values hvalues
    rw [scalars_eq_valuesOf hnames hc (hcodes c hc)] at hvalues
    cases hvalues
    exact h _ (Schema.type?_eq_some_iff.mp ht) hn
  · intro h f hf hn
    obtain ⟨c, hc, hname, -⟩ := exists_column?_of_mem hnames hf
    rw [← hname]
    exact h c hc f.2 (Schema.type?_eq_some_iff.mpr (hname ▸ hf)) hn _
      (scalars_eq_valuesOf hnames hc (hcodes c hc))

/-- Data that fits passes the check of the table as it is. -/
theorem conform_rowsOf_iff {schema : Schema} {b rows : Batch} (hdata : ofColumns columns = .ok data)
    (hnames : data.names.Perm schema.names) (hb : data.toBatch schema = .ok b) :
    conform name schema b = .ok rows ↔ data.Fits schema ∧ rows = b := by
  obtain ⟨hcodes, hrows⟩ := (toBatch_eq_ok_iff hdata hnames).mp hb
  have hcolumns : b.columns = schema.fields.map fun f => ⟨f.2, data.valuesOf f.1⟩ :=
    ((mapM_columnAs_eq_ok_iff hnames).mp (columns_of_toBatch hb)).2
  have hzip : schema.fields.zip b.columns =
      schema.fields.map fun f => (f, (⟨f.2, data.valuesOf f.1⟩ : Column)) := by
    have h := List.zip_map' (l := schema.fields) (f := fun f => f)
      (g := fun f => (⟨f.2, data.valuesOf f.1⟩ : Column))
    rwa [List.map_id', ← hcolumns] at h
  have hkept : (if schema.fields.isEmpty then .empty else b) = b := by
    split
    · rename_i hempty
      rw [List.isEmpty_iff] at hempty
      have hnone : data.columns = [] := by
        rw [Source.names, Schema.names, hempty, List.map_nil, List.perm_nil,
          List.map_eq_nil_iff] at hnames
        exact hnames
      simp [hrows, Schema.types, hempty, rowsOf, Source.numRows, hnone, Batch.empty]
    · rfl
  rw [conform_eq_ok_iff (laidOut_of_toBatch hb), hkept, hzip, List.forall_mem_map]
  refine and_congr_left' ((null_notMem_iff hnames hcodes).trans ?_)
  exact ⟨fun h => ⟨hnames, hcodes, h⟩, fun h => h.nulls⟩

/-- Data for a table has the names of its columns, and is put in their order. -/
theorem batchFor_eq_ok_iff (ht : s.find name = .ok t) {b : Batch} : s.batchFor name data = .ok b ↔
    data.names.Perm t.schema.names ∧ data.toBatch t.schema = .ok b := by
  have hschema : s.schemaOf name = .ok t.schema := by rw [schemaOf, ht]; rfl
  rw [batchFor, hschema, Result.ok_bind, Result.bind_eq_ok_iff]
  constructor
  · rintro ⟨_, hnames, hb⟩
    exact ⟨Session.checkColumns_eq_ok_iff.mp hnames, hb⟩
  · rintro ⟨hnames, hb⟩
    exact ⟨(), Session.checkColumns_eq_ok_iff.mpr hnames, hb⟩

theorem insertSource_eq_ok_iff_insert : s.insertSource name data = (.ok (), s') ↔
    ∃ b, s.batchFor name data = .ok b ∧ s.insert name b = (.ok (), s') := by
  unfold insertSource
  cases s.batchFor name data <;> simp

/-- **Data is added to a table that it fits**, and its rows come behind those of the table. -/
theorem insertSource_eq_ok_iff (ht : s.find name = .ok t) (hsound : t.Sound)
    (hdata : ofColumns columns = .ok data) : s.insertSource name data = (.ok (), s') ↔
      data.Fits t.schema ∧ s' = ⟨put name ⟨t.schema, .ofBatch ⟨t.schema.types,
        t.data.rows ++ data.rowsOf t.schema.names⟩⟩ s.tables⟩ := by
  have happend : ∀ {b : Batch}, b.LaidOut t.schema → t.data.append (.ofBatch b) =
      (.ok (), .ofBatch ⟨t.schema.types, t.data.rows ++ b.rows⟩) := fun {b} hb => by
    refine ColumnBatch.append_eq_ofBatch hsound.aligned (ColumnBatch.aligned_ofBatch b) ?_
    rw [ColumnBatch.toBatch_ofBatch hb.rectangular]
    exact append_eq_ok hsound.laidOut.types hb.types
  rw [insertSource_eq_ok_iff_insert]
  simp only [batchFor_eq_ok_iff ht, insert_eq_ok_iff]
  constructor
  · rintro ⟨b, ⟨hnames, hb⟩, t', rows, ht', hconform, -, rfl⟩
    obtain rfl : t = t' := Except.ok.inj (ht.symm.trans ht')
    obtain ⟨hfits, rfl⟩ := (conform_rowsOf_iff hdata hnames hb).mp hconform
    rw [happend (laidOut_of_toBatch hb)]
    obtain ⟨-, rfl⟩ := (toBatch_eq_ok_iff hdata hnames).mp hb
    exact ⟨hfits, rfl⟩
  · rintro ⟨hfits, rfl⟩
    have hb := (toBatch_eq_ok_iff hdata hfits.names).mpr ⟨hfits.codes, rfl⟩
    have hall := happend (laidOut_of_toBatch hb)
    refine ⟨_, ⟨hfits.names, hb⟩, t, _, ht,
      (conform_rowsOf_iff hdata hfits.names hb).mpr ⟨hfits, rfl⟩, congrArg Prod.fst hall, ?_⟩
    rw [hall]

/-- Adding data that fails leaves the store as it was. -/
theorem insertSource_of_error {e : Error} (h : (s.insertSource name data).1 = .error e) :
    (s.insertSource name data).2 = s := by
  unfold insertSource at h ⊢
  cases hb : s.batchFor name data with
  | error e' => rfl
  | ok b =>
    rw [hb] at h
    exact insert_of_error h

/-- **The order of the columns does not matter**, neither to what is added nor to the error. -/
theorem batchFor_of_perm (s : Store) (name : String)
    (hperm : data'.columns.Perm data.columns) (hnumRows : data'.numRows = data.numRows) :
    s.batchFor name data' = s.batchFor name data := by
  have hnames : data'.names.Perm data.names := hperm.map _
  unfold batchFor
  cases s.schemaOf name with
  | error e => rfl
  | ok schema =>
    rw [Result.ok_bind, Result.ok_bind, Session.checkColumns_of_perm hnames]
    cases hcheck : Session.checkColumns name schema data with
    | error e => rfl
    | ok u =>
      have hnodup : data.names.Nodup :=
        (Session.checkColumns_eq_ok_iff.mp hcheck).symm.nodup schema.nodup
      rw [Result.ok_bind, Result.ok_bind, toBatch_of_perm hnodup hperm hnumRows]

end Store

/-! ### Inserts of a session -/

namespace Session

open SessionStep

/-- **An insert is one change of the store.** -/
theorem insert_eq_changeStore (name : String) (data : Source) :
    insert name data = changeStore (·.insertSource name data) := by
  have hget : ∀ s, (get : SessionStep Session).run.run s = (.ok s, s) := fun _ => rfl
  have hresult : ∀ {α : Type} (r : Result α) s, (ofResult r).run.run s = (r, s) := fun _ _ => rfl
  have hchange : ∀ change s, (changeStore change).run.run s =
      ((change s.store).1, { s with store := (change s.store).2 }) := fun _ _ => rfl
  refine funext fun s => ?_
  change (insert name data).run.run s = (changeStore (·.insertSource name data)).run.run s
  unfold insert
  simp only [run_bind, hget, hresult, hchange, Store.insertSource, Store.batchFor]
  cases s.store.schemaOf name with
  | error e => rfl
  | ok schema =>
    simp only [Result.ok_bind]
    cases checkColumns name schema data with
    | error e => rfl
    | ok u =>
      simp only [Result.ok_bind]
      cases data.toBatch schema with
      | error e => rfl
      | ok b => rfl

variable {s : Session} {name : String} {t : StoredTable} {columns : List NativeColumn}
  {data : Source}

theorem result_insert :
    (insert name data).result s = (s.store.insertSource name data).1 := by
  rw [insert_eq_changeStore, result_changeStore]

theorem after_insert :
    (insert name data).after s = { s with store := (s.store.insertSource name data).2 } := by
  rw [insert_eq_changeStore, after_changeStore]

/-- **An insert matches by name, appends, or does nothing.** Client data is added to a table of a
store that calls have made exactly if it has the names of the table's columns, its codes stand for
categories and no null meets a type that admits none. Then the table has its old rows and behind
them, in their order, those of the data, under each name the values of the data's column of this
name, and nothing else is changed; an insert that fails changes nothing at all. The result, the
error and the session afterwards are the same for the columns of the data in every order. -/
theorem insert_iff_fits (hs : s.store.Reachable) (ht : s.store.find name = .ok t)
    (hdata : Source.ofColumns columns = .ok data) :
    ((insert name data).result s = .ok () ↔ data.Fits t.schema) ∧
    ((insert name data).result s = .ok () →
      (∀ c ∈ data.columns, c.array.scalars = .ok (data.valuesOf c.name) ∧
        (data.valuesOf c.name).length = data.numRows) ∧
      (insert name data).after s = { s with store := ⟨Store.put name ⟨t.schema, .ofBatch
        ⟨t.schema.types, t.data.rows ++ data.rowsOf t.schema.names⟩⟩ s.store.tables⟩ }) ∧
    (∀ e, (insert name data).result s = .error e → (insert name data).after s = s) ∧
    ∀ others, others.Perm columns → ∃ data', Source.ofColumns others = .ok data' ∧
      (insert name data').result s = (insert name data).result s ∧
      (insert name data').after s = (insert name data).after s := by
  obtain ⟨hcolumns, hsizes⟩ := Source.ofColumns_eq_ok_iff.mp hdata
  have hchange := fun s' => (Store.insertSource_eq_ok_iff ht (hs.sound_table ht) hdata :
    s.store.insertSource name data = (.ok (), s') ↔ _)
  have hok : (insert name data).result s = .ok () ↔
      ∃ s', s.store.insertSource name data = (.ok (), s') := by
    rw [result_insert]
    exact ⟨fun h => ⟨_, Prod.ext h rfl⟩, fun ⟨_, h⟩ => congrArg Prod.fst h⟩
  refine ⟨?_, fun h => ?_, fun e h => ?_, fun others hperm => ?_⟩
  · simp only [hok, hchange, exists_and_left, exists_eq, and_true]
  · obtain ⟨s', hinsert⟩ := hok.mp h
    obtain ⟨hfits, rfl⟩ := (hchange s').mp hinsert
    refine ⟨fun c hc => ?_, ?_⟩
    · have hvalues := Source.scalars_eq_valuesOf hfits.names hc (hfits.codes c hc)
      exact ⟨hvalues, (NativeArray.length_of_scalars hvalues).trans (hsizes c (hcolumns ▸ hc))⟩
    · rw [after_insert, hinsert]
  · rw [after_insert, Store.insertSource_of_error (result_insert.symm.trans h)]
  · obtain ⟨hothers, hnumRows⟩ := Source.exists_ofColumns_of_perm hdata hperm
    have hsame : s.store.insertSource name ⟨others⟩ = s.store.insertSource name data := by
      rw [Store.insertSource, Store.insertSource,
        Store.batchFor_of_perm s.store name (hcolumns ▸ hperm) hnumRows]
    exact ⟨⟨others⟩, hothers, by rw [result_insert, result_insert, hsame],
      by rw [after_insert, after_insert, hsame]⟩

/-- Columns in another order than the table's, texts by their categories, behind a row with a
null. -/
theorem insert_iff_fits_reordered :
    let n : Int → Int64Value := Bounded.clamp _ _ (by decide)
    let int : Int → Scalar := fun v => .int .int64 (n v)
    let schema : Schema := ⟨[("a", DataType.int64.nonNull), ("b", .utf8)], by decide⟩
    let old : { b : Batch // b.Rectangular } :=
      ⟨⟨schema.types, [[int 1, .null]]⟩, List.forall_mem_singleton.mpr rfl⟩
    let s := (Session.start ⟨true, .ansi⟩).runCalls [.create "t" schema (some old) .error]
    let t : StoredTable := ⟨schema, .ofBatch old.1⟩
    let columns : List NativeColumn :=
      [.ofCategories "b" ["x", "y", "x"], .ofInt64s "a" [n 2, n 3, n 4]]
    s.store.Reachable ∧ s.store.find "t" = .ok t ∧ Source.ofColumns columns = .ok ⟨columns⟩ ∧
      (insert "t" ⟨columns⟩).result s = .ok () ∧
      ((insert "t" ⟨columns⟩).after s).store.tables = [("t", ⟨schema, .ofBatch ⟨schema.types,
        [[int 1, .null], [int 2, .utf8 "x"], [int 3, .utf8 "y"], [int 4, .utf8 "x"]]⟩⟩)] := by
  intro n int schema old s t columns
  have hs : s.store.Reachable := Session.runCalls_reachable .empty _
  have ht : s.store.find "t" = .ok t := rfl
  have hdata : Source.ofColumns columns = .ok ⟨columns⟩ := rfl
  obtain ⟨hiff, hafter, -, -⟩ := insert_iff_fits hs ht hdata
  have hok : (insert "t" ⟨columns⟩).result s = .ok () := by
    refine hiff.mpr ⟨List.Perm.swap _ _ _, ?_, ?_⟩
    · rintro c (_ | ⟨_, _ | ⟨_, ⟨⟩⟩⟩)
      · intro code hcode
        change some code ∈ [some 0, some 1, some 0] at hcode
        change code < 2
        simp only [List.mem_cons, Option.some.injEq, List.not_mem_nil, or_false] at hcode
        omega
      · trivial
    · rintro c (_ | ⟨_, _ | ⟨_, ⟨⟩⟩⟩) type htype hnonNull values hvalues
      · cases htype
        cases hnonNull
      · cases hvalues
        simp [NativeArray.orNull]
  exact ⟨hs, ht, hdata, hok, congrArg (fun s => s.store.tables) (hafter hok).2⟩

end Session

end TableQuery
