import TableQuery.Proofs.Operator.Ordering
import TableQuery.Proofs.Session.Limit
import TableQuery.Proofs.Session.Verbose
import TableQuery.Proofs.Store.Reading
import TableQuery.Proofs.Store.Schemas

/-! # Sessions that share a store

Several sessions may work on one store. No session holds the store between its steps: an insert
reads the schema of its table first and adds rows that are laid out for this schema later
(`PendingInsert.insert_eq_start_finish`), and a table that a session gave out keeps the schema that
was read then and is executed later. Between the two, values travel by position.

`Sharing.step` is a step of one session and `Sharing.run` an interleaving of any number of them.
What a step does to the store are calls of the store (`Sharing.leadsTo_step`), so that the store
stays one that calls make, and the schema that stands under a name is changed only by creating or
dropping the table. What the other sessions have in hand is left alone. The main statement is
`Sharing.columns_keep_names`: the second step of an insert adds the values that the names of the
schema stand for when it was read, and selecting columns of a table shows the current values under
the names of the schema when it was read. Where the table still has these names in this order, these
are the columns of those names. Otherwise values come under the names of other columns, although
data is matched by name and rows are to come in the order of the table's columns: in the second
step, only their number is checked (`Sharing.not_columns_keep_names`). -/

namespace TableQuery

/-! ### What steps do to the store -/

namespace SessionStep

variable {α β : Type}

/-- **The step changes the store by calls of some kind**, if it changes it at all. -/
def Calls (P : StoreCall → Prop) (x : SessionStep α) : Prop :=
  ∀ s : Session, s.store.LeadsTo P (x.after s).store

variable {P : StoreCall → Prop}

theorem calls_of_store_eq {x : SessionStep α} (h : ∀ s, (x.after s).store = s.store) :
    x.Calls P := by
  intro s
  rw [h]
  exact .refl

theorem calls_pure (a : α) : (pure a : SessionStep α).Calls P := calls_of_store_eq fun _ => rfl

theorem Calls.bind {x : SessionStep α} {f : α → SessionStep β} (hx : x.Calls P)
    (hf : ∀ a, (f a).Calls P) : (x >>= f).Calls P := by
  intro s
  cases h : x.result s with
  | error e => exact (bind_of_error h f).2 ▸ hx s
  | ok a =>
    rw [after_bind h]
    exact (hx s).trans (hf a _)

theorem Calls.get_bind {f : Session → SessionStep β} (hf : ∀ s, (f s).Calls P) :
    Calls P (get >>= f) := fun s => hf s s

end SessionStep

namespace Session

open SessionStep

variable {α : Type} {P : StoreCall → Prop}

theorem result_withConfig (config : Config) (x : SessionStep α) (s : Session) :
    (withConfig config x).result s = x.result { s with config } := rfl

theorem store_after_withConfig (config : Config) (x : SessionStep α) (s : Session) :
    ((withConfig config x).after s).store = (x.after { s with config }).store := rfl

theorem calls_ofResult (r : Result α) : (ofResult r).Calls P := calls_of_store_eq fun _ => rfl

/-- What comes after a computation is only of interest if that succeeds. -/
theorem calls_ofResult_bind {β : Type} {r : Result α} {f : α → SessionStep β}
    (hf : ∀ a, r = .ok a → (f a).Calls P) : (ofResult r >>= f).Calls P := by
  cases r with
  | error e => exact fun _ => .refl
  | ok a => exact fun s => (after_ofResult_bind s rfl f).symm ▸ hf a rfl s

theorem calls_build (b : Build α) : (build b).Calls P := calls_of_store_eq fun _ => rfl

theorem calls_report (text : String) : (report text).Calls P := by
  refine calls_of_store_eq fun s => ?_
  obtain ⟨log, hlog⟩ := after_report s text
  rw [hlog]

theorem calls_changeStore {c : StoreCall} (hc : P c) : (changeStore c.change).Calls P :=
  fun s => .of_change hc s.store

theorem calls_withSuffix (t : Table) : (withSuffix t).Calls P :=
  .get_bind fun _ => calls_pure _

theorem calls_table (name : String) : (table name).Calls P := by
  refine .get_bind fun _ => (calls_report _).bind fun _ => .get_bind fun _ => ?_
  refine (calls_ofResult _).bind fun _ => (calls_build _).bind fun t => ?_
  exact calls_withSuffix t

theorem calls_sql (query : String) : (sql query).Calls P := by
  refine (calls_report _).bind fun _ => .get_bind fun _ => ?_
  refine (calls_ofResult _).bind fun _ => (calls_build _).bind fun t => ?_
  exact calls_withSuffix t

theorem calls_execute (q : Query) (choice : LimitChoice) : (execute q choice).Calls P := by
  have hrun : ∀ c, (run c).Calls P := fun c =>
    (calls_of_store_eq fun _ => rfl : Calls P _).bind fun _ => .get_bind fun _ => calls_ofResult _
  refine Calls.bind (.get_bind fun _ => calls_build _) fun c => ?_
  refine (calls_report _).bind fun _ => (hrun c).bind fun b => ?_
  split
  · exact calls_ofResult _
  · exact (calls_ofResult _).bind fun _ => calls_pure _

theorem calls_createWith {name : String} {schema : Schema}
    (data : Option { b : Batch // b.Rectangular }) {onConflict : OnConflict}
    (h : P (.create name schema data onConflict)) :
    (createWith name schema (data.map Subtype.val) onConflict).Calls P := by
  have hsilent : (createSilently name schema (data.map Subtype.val) onConflict).Calls P :=
    (calls_changeStore h).bind fun _ => calls_table name
  intro s
  rw [after]
  rcases createWith_cases s name schema (data.map Subtype.val) onConflict with ⟨log, hrun⟩ | hrun
  · rw [hrun]
    exact hsilent { s with log }
  · rw [hrun]
    exact .refl

theorem calls_createTableFrom {name : String} {data : Source} {schema : Option Schema}
    {onConflict : OnConflict} (h : ∀ schema rows, P (.create name schema rows onConflict)) :
    (createTableFrom name data schema onConflict).Calls P := by
  rw [createTableFrom_eq_bind]
  refine calls_ofResult_bind fun p hp => ?_
  exact calls_createWith (some ⟨p.2, (laidOut_of_tableOf hp).rectangular⟩) (h _ _)

theorem calls_insert {name : String} {data : Source} (h : ∀ rows, P (.insert name rows)) :
    (insert name data).Calls P := by
  refine .get_bind fun _ => (calls_ofResult _).bind fun _ => (calls_ofResult _).bind fun _ => ?_
  refine calls_ofResult_bind fun b hb => ?_
  exact calls_changeStore (c := .insert name ⟨b, (Source.laidOut_of_toBatch hb).rectangular⟩) (h _)

theorem calls_truncate {name : String} (h : P (.truncate name)) : (truncate name).Calls P :=
  calls_changeStore h

theorem calls_drop {name : String} {force : Bool} (h : P (.drop name force)) :
    (drop name force).Calls P := calls_changeStore h

end Session

namespace SessionCall

open SessionStep

/-- The call makes the table of a name anew or removes it. -/
def Redefines (name : String) : SessionCall → Prop
  | createTable n _ _ | createTableFrom n _ _ _ | drop n _ => name = n
  | _ => False

/-- **What a call of a session does to the store** are calls of the store, which redefine no table
that it does not redefine. -/
theorem calls_run (c : SessionCall) :
    c.run.Calls fun d => ∀ name, d.Redefines name → c.Redefines name := by
  cases c with
  | table other => exact (Session.calls_table other).bind fun _ => calls_pure _
  | sql query => exact (Session.calls_sql query).bind fun _ => calls_pure _
  | derive t => exact (Session.calls_build t).bind fun _ => calls_pure _
  | createTable other schema onConflict =>
    exact (Session.calls_createWith none fun _ h => h).bind fun _ => calls_pure _
  | createTableFrom other data schema onConflict =>
    exact (Session.calls_createTableFrom fun _ _ _ h => h).bind fun _ => calls_pure _
  | insert other data => exact (Session.calls_insert fun _ _ h => h).bind fun _ => calls_pure _
  | execute q choice => exact (Session.calls_execute q choice).bind fun _ => calls_pure _
  | truncate other => exact (Session.calls_truncate fun _ h => h).bind fun _ => calls_pure _
  | drop other force => exact (Session.calls_drop fun _ h => h).bind fun _ => calls_pure _

end SessionCall

/-! ### Inserts in two steps -/

/-- A column of the rows that client data is turned into has the values of the data's column of its
name. -/
theorem Source.values_of_toBatch {data : Source} {schema : Schema} {b : Batch}
    (h : data.toBatch schema = .ok b) {name : String} (hname : name ∈ schema.names) :
    ∃ column values, data.column? name = some column ∧ column.array.scalars = .ok values ∧
      b.rows.map (schema.valueAt · name) = values := by
  obtain ⟨⟨n, t⟩, hfield, rfl⟩ := List.mem_map.mp hname
  obtain ⟨i, hi⟩ := List.getElem?_of_mem hfield
  obtain ⟨c, hc, hcolumn⟩ :=
    exists_of_forall₂_getElem? (Result.forall₂_of_mapM (columns_of_toBatch h)) hi
  obtain ⟨u, -, rfl⟩ := Batch.columns_getElem?_eq_some_iff.mp hc
  unfold columnAs at hcolumn
  split at hcolumn
  · rename_i column hfound
    obtain ⟨values, hvalues, hvalue⟩ := Result.map_eq_ok_iff.mp hcolumn
    refine ⟨column, values, hfound, hvalues, ?_⟩
    rw [(Column.mk.inj hvalue).2]
    exact List.map_congr_left fun row _ => Schema.valueAt_of_getElem? hi row
  · cases hcolumn

theorem Schema.valueAt_congr {s s' : Schema} (h : s.names = s'.names) : s.valueAt = s'.valueAt := by
  funext row name
  rw [valueAt, valueAt, index?, index?, h]

/-- **Rows are added by the names of a schema**: a table has further rows, and in the columns that
the schema has at their places stand the values of the data's columns of these names. -/
structure StoredTable.AddedBy (names : Schema) (data : Source) (t t' : StoredTable) : Prop where
  schema : t'.schema = t.schema
  rows : ∃ rows, t'.data.rows = t.data.rows ++ rows ∧ ∀ name ∈ names.names,
    ∃ column values, data.column? name = some column ∧ column.array.scalars = .ok values ∧
      rows.map (names.valueAt · name) = values

/-- Which columns rows are added to is a matter of the names in their order. -/
theorem StoredTable.AddedBy.congr {names names' : Schema} {data : Source} {t t' : StoredTable}
    (h : t.AddedBy names data t') (hnames : names'.names = names.names) :
    t.AddedBy names' data t' := by
  obtain ⟨hschema, rows, hrows, hvalues⟩ := h
  refine ⟨hschema, rows, hrows, ?_⟩
  rw [hnames, Schema.valueAt_congr hnames]
  exact hvalues

/-- An insert between its two steps: the schema of its table has been read, and the data has been
laid out for it. -/
structure PendingInsert where
  table : String
  data : Source
  /-- The schema as it was read. -/
  read : Schema
  rows : Batch
  laidOut : data.toBatch read = .ok rows

namespace PendingInsert

open SessionStep

/-- Data that is checked against a schema and laid out for it. -/
def ofSource (table : String) (data : Source) (read : Schema) : Result PendingInsert := do
  Session.checkColumns table read data
  match hlaidOut : data.toBatch read with
  | .error e => .error e
  | .ok rows => .ok ⟨table, data, read, rows, hlaidOut⟩

/-- The first step of an insert. -/
def start (table : String) (data : Source) : SessionStep PendingInsert := do
  let read ← Session.ofResult ((← get).store.schemaOf table)
  Session.ofResult (ofSource table data read)

/-- The second step. -/
def finish (p : PendingInsert) : SessionStep Unit := Session.changeStore (·.insert p.table p.rows)

theorem ofSource_eq_map (table : String) (data : Source) (read : Schema) :
    (ofSource table data read).map rows =
      (do Session.checkColumns table read data; data.toBatch read) := by
  unfold ofSource
  cases Session.checkColumns table read data with
  | error e => rfl
  | ok u =>
    rw [Result.ok_bind, Result.ok_bind]
    split
    · rename_i hlaidOut
      exact hlaidOut.symm
    · rename_i hlaidOut
      exact hlaidOut.symm

theorem ofSource_eq_ok {table : String} {data : Source} {read : Schema} {rows : Batch}
    (hchecked : Session.checkColumns table read data = .ok ())
    (hlaidOut : data.toBatch read = .ok rows) :
    ofSource table data read = .ok ⟨table, data, read, rows, hlaidOut⟩ := by
  rw [ofSource, hchecked, Result.ok_bind]
  split
  · rename_i h
    rw [h] at hlaidOut
    cases hlaidOut
  · rename_i rows' h
    obtain rfl : rows' = rows := Except.ok.inj (h.symm.trans hlaidOut)
    rfl

theorem of_ofSource {table : String} {data : Source} {read : Schema} {p : PendingInsert}
    (h : ofSource table data read = .ok p) : p.table = table ∧ p.data = data ∧ p.read = read := by
  obtain ⟨_, -, h⟩ := Result.bind_eq_ok_iff.mp h
  split at h <;> cases h
  exact ⟨rfl, rfl, rfl⟩

/-- **An insert is its two steps**, one right after the other. -/
theorem insert_eq_start_finish (table : String) (data : Source) :
    Session.insert table data = start table data >>= finish := by
  have hrest : ∀ read : Schema, (do
      Session.ofResult (Session.checkColumns table read data)
      let rows ← Session.ofResult (data.toBatch read)
      Session.changeStore (·.insert table rows)) =
        Session.ofResult (ofSource table data read) >>= finish := by
    intro read
    have hsteps : (do
        Session.ofResult (Session.checkColumns table read data)
        let rows ← Session.ofResult (data.toBatch read)
        Session.changeStore (·.insert table rows)) =
          Session.ofResult (do
            Session.checkColumns table read data
            data.toBatch read) >>= fun rows => Session.changeStore (·.insert table rows) := by
      cases Session.checkColumns table read data with
      | error e => rfl
      | ok u => rfl
    rw [hsteps, ← ofSource_eq_map]
    cases hpending : ofSource table data read with
    | error e => rfl
    | ok p =>
      obtain ⟨rfl, -, -⟩ := of_ofSource hpending
      rfl
  unfold Session.insert start
  simp only [hrest, bind_assoc]

variable {p : PendingInsert} {s : Session} {t : StoredTable}

theorem result_start (table : String) (data : Source) (s : Session) :
    (start table data).result s = s.store.schemaOf table >>= ofSource table data := by
  unfold start
  rw [result_bind, result_get, Result.ok_bind, after_get, result_bind]
  rfl

/-- The first step reads the schema of the table. -/
theorem of_start {table : String} {data : Source} (h : (start table data).result s = .ok p) :
    p.table = table ∧ p.data = data ∧ s.store.schemaOf table = .ok p.read := by
  rw [result_start] at h
  obtain ⟨read, hread, hpending⟩ := Result.bind_eq_ok_iff.mp h
  obtain ⟨htable, hdata, rfl⟩ := of_ofSource hpending
  exact ⟨htable, hdata, hread⟩

/-- The second step is a call of the store. -/
theorem calls_finish {P : StoreCall → Prop} (h : ∀ rows, P (.insert p.table rows)) :
    p.finish.Calls P :=
  Session.calls_changeStore
    (c := .insert p.table ⟨p.rows, (Source.laidOut_of_toBatch p.laidOut).rectangular⟩) (h _)

/-- **What the second step adds** goes by the names of the schema that was read. -/
theorem addedBy_of_finish (hs : s.store.Reachable) (h : p.finish.result s = .ok ()) :
    ∃ t t', s.store.find p.table = .ok t ∧ (p.finish.after s).store.find p.table = .ok t' ∧
      t.schema.size = p.read.size ∧ t.AddedBy p.read p.data t' := by
  have hlaidOut := Source.laidOut_of_toBatch p.laidOut
  have hinsert : s.store.insert p.table p.rows = (.ok (), (p.finish.after s).store) :=
    Prod.ext h rfl
  obtain ⟨t, rows, ht, hrows, happend, hstore⟩ := Store.insert_eq_ok_iff.mp hinsert
  obtain ⟨hcount, hkept⟩ := Store.rows_of_conform hrows
  have hsize : t.schema.size = p.read.size := hcount.symm.trans hlaidOut.numColumns_eq
  have hadded := ColumnBatch.rows_append (hs.sound_table ht).aligned
    (ColumnBatch.aligned_ofBatch rows) happend
  have ht' : (p.finish.after s).store.find p.table =
      .ok ⟨t.schema, (t.data.append (.ofBatch rows)).2⟩ := hstore ▸ Store.find_put _ _ _
  refine ⟨t, _, ht, ht', hsize, rfl, _, hadded, fun name hname => ?_⟩
  obtain ⟨column, values, hcolumn, hscalars, hvalues⟩ := Source.values_of_toBatch p.laidOut hname
  have hfields : t.schema.fields ≠ [] := by
    intro hempty
    obtain ⟨field, hfield, -⟩ := List.mem_map.mp hname
    have hread : p.read.fields.length = 0 := by
      rw [← Schema.size, ← hsize, Schema.size, hempty]
      rfl
    rw [List.length_eq_zero_iff.mp hread] at hfield
    cases hfield
  have hrectangular : rows.Rectangular := by
    rw [hkept hfields]
    intro row hrow
    have hwidth : row.length = p.rows.numColumns := hlaidOut.rectangular row hrow
    rw [hwidth, hcount, Schema.size, Batch.withTypes, Schema.types, List.length_map]
  have hread : (ColumnBatch.ofBatch rows).rows = p.rows.rows := by
    have htoBatch := congrArg Batch.rows (ColumnBatch.toBatch_ofBatch hrectangular)
    rw [hkept hfields] at htoBatch ⊢
    exact htoBatch
  exact ⟨column, values, hcolumn, hscalars, hread ▸ hvalues⟩

/-- A second step that fails leaves the session as it was. -/
theorem finish_of_error {e : Error} (h : p.finish.result s = .error e) : p.finish.after s = s := by
  have hstore : (s.store.insert p.table p.rows).2 = s.store := Store.insert_of_error h
  rw [finish, Session.after_changeStore, hstore]

end PendingInsert

/-! ### Selected columns -/

theorem Expr.windowsOfAll_columns (table : Option TableRef) :
    ∀ names : List String, windowsOfAll (names.map (column table)) = []
  | [] => rfl
  | _ :: r => windowsOfAll_columns table r

/-- Columns of a table are selected by a projection that passes them on. -/
theorem Table.gives_selectColumns {t u : Table} {names : List String} {ref next : TableRef}
    (h : (t.selectColumns names).Gives ref u next) : ∃ schema : Schema,
      u.root = .node (.project (names.map (.column (some t.ref)))) ref schema [t.root] ∧
      (names.map (.column (some t.ref))).mapM (projectedField t.schema) = .ok schema.fields ∧
      schema.names = names := by
  obtain ⟨exprs, hcols, h⟩ := Build.gives_ofResult_bind_iff.mp h
  have hexprs : exprs = names.map (.column (some t.ref)) := by
    have hcol : ∀ name e, t.col name = .ok e → .column (some t.ref) name = e := by
      intro name e he
      obtain ⟨_, -, he⟩ := Result.bind_eq_ok_iff.mp he
      exact Except.ok.inj he
    have hall := (Result.forall₂_of_mapM hcols).imp fun name e => hcol name e
    exact ((List.map_id exprs).symm.trans (map_eq_map_of_forall₂ hall).symm)
  subst hexprs
  obtain ⟨schema, hschema, h⟩ := Build.gives_ofResult_bind_iff.mp h
  obtain ⟨rfl, -⟩ := Sound.gives_derive_iff.mp h
  have hfields := Sound.fields_of_projectSchema hschema
  refine ⟨schema, rfl, hfields, ?_⟩
  have hname : ∀ name field, projectedField t.schema (.column (some t.ref) name) = .ok field →
      id name = field.1 := by
    intro name field hfield
    obtain ⟨_, -, rfl⟩ := Result.map_eq_ok_iff.mp hfield
    rfl
  rw [List.mapM_map] at hfields
  have hall := (Result.forall₂_of_mapM hfields).imp fun name field => hname name field
  exact (map_eq_map_of_forall₂ hall).symm.trans (List.map_id names)

/-- How many rows a caller wants, under a default limit. -/
def LimitChoice.count? (defaultLimit : Option Nat) : LimitChoice → Option Nat
  | .default => defaultLimit
  | .rows n => some n
  | .unbounded => none

namespace Session

open SessionStep

variable {s : Session}

/-- What the caller wants of a plan without a limit at its root are its first rows. -/
theorem result_execute_count {q : Query} (hshape : q.shape ≠ .scalar)
    (hroot : ∀ m k, q.table.root.op ≠ .limit m k) (choice : LimitChoice) :
    (execute q choice).result s = match choice.count? (s.config.defaultLimit.map (·.val.toNat)) with
      | some n => (s.answer q.shape q.table.root).map (·.mapRows (·.take n))
      | none => s.answer q.shape q.table.root := by
  cases choice with
  | rows n => exact result_execute_rows hshape hroot n
  | unbounded => exact result_execute_unbounded q s
  | default =>
    cases hdefault : s.config.defaultLimit.map (·.val.toNat) with
    | some n =>
      rw [result_execute_eq_answer (Query.gives_rootFor_default hshape hroot hdefault s.nextRef),
        answer_limit hshape]
      rfl
    | none =>
      have hgives : (q.rootFor s.config .default).Gives s.nextRef q.table.root s.nextRef := by
        obtain ⟨⟨⟨op, own, schema, children⟩, suffixes⟩, shape⟩ := q
        rw [Query.rootFor, if_neg hshape, hdefault]
        cases op with
        | limit m k => exact absurd rfl (hroot m k)
        | _ => exact Build.gives_pure_iff.mpr ⟨rfl, rfl⟩
      exact result_execute_eq_answer hgives

/-- **The rows of a projection that passes on columns of a scan** have the current values of the
table in them, by the places that the columns had in the schema of the scan. -/
theorem batchOf_columns {name : String} {names : List String} {own ref : TableRef}
    {table : Option TableRef} {read schema : Schema} {b : Batch}
    (hfields : (names.map (.column table)).mapM (Table.projectedField read) = .ok schema.fields)
    (h : s.batchOf (.node (.project (names.map (.column table))) ref schema
      [.node (.scan name) own read []]) = .ok b) :
    ∃ t, s.store.find name = .ok t ∧ List.Forall₂ (fun row out => ∀ c ∈ names,
      schema.valueAt out c = read.valueAt row c) t.data.rows b.rows := by
  have hchecked : (Plan.node (.project (names.map (.column table))) ref schema
      [.node (.scan name) own read []]).Checked := .project .scan hfields
  rw [batchOf_eq s .table] at h
  obtain ⟨c, hc, hb⟩ := Result.bind_eq_ok_iff.mp h
  obtain ⟨-, -, hplan, -⟩ := compileRoot_eq_ok_iff.mp hc
  cases OperatorPlan.executes_of_ofPlan hchecked hplan hb with
  | project hchild hfields' hprojected hcolumns hrun =>
    cases hchild with
    | scan hscan =>
      obtain ⟨t, ht, rfl⟩ := Store.scan_eq_ok_iff.mp hscan
      have hnone : Expr.windowsOfAll (names.map (.column table)) = [] :=
        Expr.windowsOfAll_columns table names
      refine ⟨t, ht, (hprojected.forall₂_passes hfields hcolumns hrun (absurd hnone)).imp ?_⟩
      intro row out hrow c hc
      exact hrow c ⟨.column table c, List.mem_map_of_mem hc, table, rfl, rfl⟩

end Session

/-- **A result shows columns by the names of a schema**: its rows are the first ones of a table, and
under each of its names stand the values that the schema has at the place of the name. -/
structure StoredTable.ShownBy (names : Schema) (columns : List String) (count : Option Nat)
    (t : StoredTable) (r : QueryResult) : Prop where
  names_eq : r.schema.names = columns
  rows : ∃ b, r.output = .batch b ∧ List.Forall₂ (fun row out => ∀ c ∈ columns,
    r.schema.valueAt out c = names.valueAt row c) (t.data.toBatch.slice 0 count).rows b.rows

theorem StoredTable.ShownBy.congr {names names' : Schema} {columns : List String}
    {count : Option Nat} {t : StoredTable} {r : QueryResult} (h : t.ShownBy names columns count r)
    (hnames : names'.names = names.names) : t.ShownBy names' columns count r := by
  obtain ⟨hcolumns, hrows⟩ := h
  refine ⟨hcolumns, ?_⟩
  rw [Schema.valueAt_congr hnames]
  exact hrows

namespace Session

open SessionStep

variable {s : Session} {name : String} {t : Table}

/-- A table of the store is a scan with the schema that was read. -/
theorem of_table (h : (table name).result s = .ok t) :
    s.store.schemaOf name = .ok t.schema ∧ ∃ ref, t.root = .node (.scan name) ref t.schema [] := by
  cases hschema : s.store.schemaOf name with
  | error e =>
    obtain ⟨log, hlog⟩ := after_report s ("DESCRIBE " ++ s.capabilities.dialect.name name)
    unfold table at h
    simp only [result_bind, result_get, after_get, Result.ok_bind, result_report, hlog,
      result_ofResult, hschema, Result.error_bind] at h
    cases h
  | ok schema =>
    rw [result_table hschema] at h
    cases h
    exact ⟨rfl, _, rfl⟩

/-- **Selecting columns of a scan** shows the current rows of its table by the schema that was
read. -/
theorem shownBy_of_execute {own ref next : TableRef} {columns : List String} {u : Table}
    {choice : LimitChoice} {r : QueryResult} (hroot : t.root = .node (.scan name) own t.schema [])
    (hu : (t.selectColumns columns).Gives ref u next)
    (h : (execute ⟨u, .table⟩ choice).result s = .ok r) :
    ∃ stored, s.store.find name = .ok stored ∧ stored.ShownBy t.schema columns
      (choice.count? (s.config.defaultLimit.map (·.val.toNat))) r := by
  obtain ⟨schema, huroot, hfields, hnames⟩ := Table.gives_selectColumns hu
  have hlimit : ∀ m k, u.root.op ≠ .limit m k := by
    intro m k
    rw [huroot]
    exact fun h => nomatch h
  -- The rows of the projection, before the limit.
  have hanswer : ∀ r', s.answer .table u.root = .ok r' → r'.schema = schema ∧
      ∃ b, r'.output = .batch b ∧ ∃ stored, s.store.find name = .ok stored ∧
        List.Forall₂ (fun row out => ∀ c ∈ columns, schema.valueAt out c = t.schema.valueAt row c)
          stored.data.rows b.rows := by
    intro r' hr'
    obtain ⟨b, hb, -, hschema, houtput⟩ := answer_eq_ok_iff.mp hr'
    rw [huroot] at hb hschema
    rw [hroot] at hb
    obtain ⟨stored, hstored, hrows⟩ := batchOf_columns hfields hb
    exact ⟨hschema, b, (Except.ok.inj houtput).symm, stored, hstored, hrows⟩
  rw [result_execute_count (q := ⟨u, .table⟩) (fun h => nomatch h) hlimit] at h
  cases hcount : choice.count? (s.config.defaultLimit.map (·.val.toNat)) with
  | none =>
    rw [hcount] at h
    obtain ⟨hschema, b, hb, stored, hstored, hrows⟩ := hanswer r h
    rw [← hschema] at hnames hrows
    exact ⟨stored, hstored, hnames, b, hb, hrows⟩
  | some n =>
    rw [hcount] at h
    obtain ⟨r', hr', rfl⟩ := Result.map_eq_ok_iff.mp h
    obtain ⟨hschema, b, hb, stored, hstored, hrows⟩ := hanswer r' hr'
    have hcut : r'.mapRows (·.take n) = ⟨r'.schema, .batch ⟨b.types, b.rows.take n⟩⟩ := by
      rw [QueryResult.mapRows, hb]
    rw [hcut, hschema]
    exact ⟨stored, hstored, hnames, _, rfl, List.forall₂_take n hrows⟩

end Session

/-! ### Sessions over one store -/

/-- One of the sessions that share a store. -/
structure Client where
  config : Config
  /-- The insert that it is in the middle of. -/
  pending : Option PendingInsert

/-- Sessions that share a store. -/
structure Sharing (ι : Type) where
  shared : Session
  client : ι → Client

/-- What one of the sessions does next. -/
inductive ClientStep where
  /-- A whole call. -/
  | call (c : SessionCall)
  | startInsert (table : String) (data : Source)
  | finishInsert
  | set (name : String) (v : Scalar)

/-- The step makes the table of a name anew or removes it. -/
def ClientStep.Redefines (name : String) : ClientStep → Prop
  | call c => c.Redefines name
  | _ => False

namespace Sharing

open Session SessionStep

variable {ι : Type} [DecidableEq ι]

/-- The sessions with one replaced. -/
def withClient (w : Sharing ι) (i : ι) (c : Client) : Sharing ι :=
  { w with client := Function.update w.client i c }

/-- **One step**, which a session takes under its own settings. -/
def step (w : Sharing ι) (i : ι) : ClientStep → Sharing ι
  | .call c => { w with shared := (withConfig (w.client i).config c.run).after w.shared }
  | .startInsert table data =>
    match (PendingInsert.start table data).result w.shared with
    | .ok p => w.withClient i { w.client i with pending := some p }
    | .error _ => w
  | .finishInsert =>
    match (w.client i).pending with
    | some p =>
      { w.withClient i { w.client i with pending := none } with
        shared := p.finish.after w.shared }
    | none => w
  | .set name v =>
    match (w.client i).config.set name v with
    | .ok config => w.withClient i { w.client i with config }
    | .error _ => w

theorem step_startInsert {w : Sharing ι} {name : String} {data : Source} {p : PendingInsert}
    (h : (PendingInsert.start name data).result w.shared = .ok p) (i : ι) :
    w.step i (.startInsert name data) =
      w.withClient i { w.client i with pending := some p } := by
  rw [step, h]

/-- The steps of an interleaving. -/
def run (w : Sharing ι) (steps : List (ι × ClientStep)) : Sharing ι :=
  steps.foldl (fun w e => w.step e.1 e.2) w

/-- A step leaves the other sessions as they are. -/
theorem client_step {i j : ι} (h : i ≠ j) (w : Sharing ι) (e : ClientStep) :
    (w.step j e).client i = w.client i := by
  have hother : ∀ c, (w.withClient j c).client i = w.client i := by
    intro c
    exact Function.update_of_ne h c w.client
  cases e with
  | call c => rfl
  | startInsert table data =>
    rw [step]
    split
    · exact hother _
    · rfl
  | finishInsert =>
    rw [step]
    split
    · exact hother _
    · rfl
  | set name v =>
    rw [step]
    split
    · exact hother _
    · rfl

theorem client_run {i : ι} {steps : List (ι × ClientStep)} (h : ∀ e ∈ steps, i ≠ e.1)
    (w : Sharing ι) : (w.run steps).client i = w.client i := by
  induction steps generalizing w with
  | nil => rfl
  | cons e steps ih =>
    obtain ⟨he, h⟩ := List.forall_mem_cons.mp h
    exact (ih h (w.step e.1 e.2)).trans (client_step he w e.2)

/-- **A step changes the store** by calls that redefine no table that it does not redefine. -/
theorem leadsTo_step (w : Sharing ι) (i : ι) (e : ClientStep) : w.shared.store.LeadsTo
    (fun d => ∀ name, d.Redefines name → e.Redefines name) (w.step i e).shared.store := by
  cases e with
  | call c =>
    rw [step, store_after_withConfig]
    exact c.calls_run { w.shared with config := (w.client i).config }
  | startInsert table data =>
    rw [step]
    split <;> exact .refl
  | finishInsert =>
    rw [step]
    split
    · exact PendingInsert.calls_finish (fun _ _ h => h) w.shared
    · exact .refl
  | set setting v =>
    rw [step]
    split <;> exact .refl

theorem leadsTo_run (w : Sharing ι) (steps : List (ι × ClientStep)) : w.shared.store.LeadsTo
    (fun d => ∀ name, d.Redefines name → ∃ e ∈ steps, e.2.Redefines name)
    (w.run steps).shared.store := by
  induction steps generalizing w with
  | nil => exact .refl
  | cons e steps ih =>
    have hstep := (leadsTo_step w e.1 e.2).imp fun d hd name h =>
      (⟨e, List.mem_cons_self, hd name h⟩ : ∃ e' ∈ e :: steps, e'.2.Redefines name)
    refine hstep.trans ((ih (w.step e.1 e.2)).imp fun d hd name h => ?_)
    obtain ⟨e', he', hredefines⟩ := hd name h
    exact ⟨e', List.mem_cons_of_mem e he', hredefines⟩

theorem reachable_step {w : Sharing ι} (hw : w.shared.store.Reachable) (i : ι) (e : ClientStep) :
    (w.step i e).shared.store.Reachable := (leadsTo_step w i e).reachable hw

theorem reachable_run {w : Sharing ι} (hw : w.shared.store.Reachable)
    (steps : List (ι × ClientStep)) : (w.run steps).shared.store.Reachable :=
  (leadsTo_run w steps).reachable hw

/-- Steps change the schema of a table only by creating or dropping it. -/
theorem schemaOf_run {name : String} {steps : List (ι × ClientStep)}
    (h : ∀ e ∈ steps, ¬ e.2.Redefines name) (w : Sharing ι) :
    (w.run steps).shared.store.schemaOf name = w.shared.store.schemaOf name := by
  refine ((leadsTo_run w steps).imp fun d hd hname => ?_).schemaOf_eq
  obtain ⟨e, he, hredefines⟩ := hd name hname
  exact h e he hredefines

/-- The insert that a session has started is still there after steps of others. -/
theorem pending_run {i : ι} {name : String} {data : Source} {p : PendingInsert} {w : Sharing ι}
    (hstart : (PendingInsert.start name data).result w.shared = .ok p)
    {steps : List (ι × ClientStep)} (hothers : ∀ e ∈ steps, i ≠ e.1) :
    (((w.step i (.startInsert name data)).run steps).client i).pending = some p := by
  rw [client_run hothers, step_startInsert hstart]
  exact congrArg Client.pending (Function.update_self i _ w.client)

/-- **Values stay with the names that were read**, in every interleaving of sessions that share a
store that calls have made. An insert whose second step succeeds adds to a table of as many
columns as there were, by the names of the schema that its first step read; one whose second step
fails changes nothing. Columns that are selected of a table of the store show the current rows by
the names of the schema that the table was given out with. These names are those of the table, if it
has the same ones in the same order now, and so they are if no step in between created or dropped
it. -/
theorem columns_keep_names {w : Sharing ι} (hw : w.shared.store.Reachable)
    (steps : List (ι × ClientStep)) (name : String) :
    (∀ i data p, (PendingInsert.start name data).result w.shared = .ok p →
      (∀ e ∈ steps, i ≠ e.1) →
      let w' := (w.step i (.startInsert name data)).run steps
      (w'.client i).pending = some p ∧
      (p.finish.result w'.shared = .ok () → ∃ t t', w'.shared.store.find name = .ok t ∧
        (w'.step i .finishInsert).shared.store.find name = .ok t' ∧
        t.schema.size = p.read.size ∧ t.AddedBy p.read data t' ∧
        (t.schema.names = p.read.names → t.AddedBy t.schema data t')) ∧
      (∀ e, p.finish.result w'.shared = .error e →
        (w'.step i .finishInsert).shared = w'.shared) ∧
      ((∀ e ∈ steps, ¬ e.2.Redefines name) → w'.shared.store.schemaOf name = .ok p.read)) ∧
    ∀ config t, (withConfig config (table name)).result w.shared = .ok t →
      let s := (w.run steps).shared
      (∀ columns ref u next, (t.selectColumns columns).Gives ref u next → ∀ config choice r,
        (withConfig config (execute ⟨u, .table⟩ choice)).result s = .ok r →
        ∃ stored, s.store.find name = .ok stored ∧
          let count := choice.count? (config.defaultLimit.map (·.val.toNat))
          stored.ShownBy t.schema columns count r ∧
          (stored.schema.names = t.schema.names → stored.ShownBy stored.schema columns count r)) ∧
      ((∀ e ∈ steps, ¬ e.2.Redefines name) → s.store.schemaOf name = .ok t.schema) := by
  refine ⟨fun i data p hstart hothers => ?_, fun config t ht => ?_⟩
  · intro w'
    obtain ⟨htable, hdata, hread⟩ := PendingInsert.of_start hstart
    have hpending : (w'.client i).pending = some p := pending_run hstart hothers
    have hfinish : (w'.step i .finishInsert).shared = p.finish.after w'.shared := by
      rw [step, hpending]
    refine ⟨hpending, fun hok => ?_, fun e herror => ?_, fun hsteps => ?_⟩
    · have hreachable : w'.shared.store.Reachable :=
        reachable_run (reachable_step hw i (.startInsert name data)) steps
      obtain ⟨t, t', ht, ht', hsize, hadded⟩ := p.addedBy_of_finish hreachable hok
      rw [htable] at ht ht'
      rw [hdata] at hadded
      exact ⟨t, t', ht, hfinish ▸ ht', hsize, hadded, hadded.congr⟩
    · rw [hfinish, p.finish_of_error herror]
    · rw [schemaOf_run hsteps, step_startInsert hstart, hread.symm]
      rfl
  · intro s
    rw [result_withConfig] at ht
    obtain ⟨hschema, own, hroot⟩ := of_table ht
    refine ⟨fun columns ref u next hu config choice r hr => ?_, fun hsteps => ?_⟩
    · rw [result_withConfig] at hr
      obtain ⟨stored, hstored, hshown⟩ := shownBy_of_execute hroot hu hr
      exact ⟨stored, hstored, hshown, hshown.congr⟩
    · rw [schemaOf_run hsteps, hschema]

/-- The table is emptied and made anew with the same names and another type. The rows that were laid
out for the old one are added to the new one, and a handle on the old one shows them. -/
theorem columns_keep_names_recreated :
    let n : Int → Int64Value := Bounded.clamp _ _ (by decide)
    let int : Int → Scalar := fun v => .int .int64 (n v)
    let read : Schema := ⟨[("a", DataType.int64.nonNull), ("b", .int64)], by decide⟩
    let wider : Schema := ⟨[("a", .int64), ("b", .int64)], by decide⟩
    let created := (Session.start ⟨true, .ansi⟩).runCalls [.create "t" read none .error]
    let w : Sharing Bool := ⟨created, fun _ => ⟨.standard, none⟩⟩
    let data : Source := ⟨[.ofInt64s "a" [n 1], .ofInt64s "b" [n 2]]⟩
    let others : List (Bool × ClientStep) :=
      [(true, .set "verbose" (.boolean true)), (true, .call (.truncate "t")),
        (true, .call (.createTable "t" wider .replace))]
    let w' := (w.step false (.startInsert "t" data)).run others
    let all := (false, .startInsert "t" data) :: others ++ [(false, .finishInsert)]
    let handle : Table := ⟨.node (.scan "t") ⟨0⟩ read [], .ofRight "_right"⟩
    let u : Table := ⟨.node (.project [.column (some ⟨0⟩) "b"]) ⟨1⟩ ⟨[("b", .int64)], by decide⟩
      [handle.root], handle.suffixes⟩
    let r : QueryResult := ⟨u.schema, .batch ⟨u.schema.types, [[int 2]]⟩⟩
    w.shared.store.Reachable ∧
      (∃ p, (PendingInsert.start "t" data).result w.shared = .ok p ∧ (∀ e ∈ others, false ≠ e.1) ∧
        p.finish.result w'.shared = .ok () ∧ ∃ t t', w'.shared.store.find "t" = .ok t ∧
          (w'.step false .finishInsert).shared.store.find "t" = .ok t' ∧
          t.schema.names = p.read.names ∧ t.AddedBy t.schema data t') ∧
      (withConfig .standard (table "t")).result w.shared = .ok handle ∧
      (handle.selectColumns ["b"]).Gives ⟨1⟩ u ⟨2⟩ ∧
      (withConfig .standard (execute ⟨u, .table⟩ .unbounded)).result (w.run all).shared = .ok r ∧
      ∃ stored, (w.run all).shared.store.find "t" = .ok stored ∧
        stored.schema.names = handle.schema.names ∧ stored.ShownBy stored.schema ["b"] none r := by
  intro n int read wider created w data others w' all handle u r
  have hlaidOut : data.toBatch read = .ok ⟨read.types, [[int 1, int 2]]⟩ := rfl
  have hstart : (PendingInsert.start "t" data).result w.shared =
      .ok ⟨"t", data, read, _, hlaidOut⟩ := by
    rw [PendingInsert.result_start]
    exact PendingInsert.ofSource_eq_ok (checkColumns_of_names "t" rfl) hlaidOut
  have hothers : ∀ e ∈ others, false ≠ e.1 := by decide
  have hhandle : (withConfig .standard (table "t")).result w.shared = .ok handle := rfl
  have hu : (handle.selectColumns ["b"]).Gives ⟨1⟩ u ⟨2⟩ := rfl
  have hw : w.shared.store.Reachable := runCalls_reachable .empty _
  obtain ⟨hinsert, -⟩ := columns_keep_names hw others "t"
  obtain ⟨-, hexecute⟩ := columns_keep_names hw all "t"
  obtain ⟨-, hadded, -, -⟩ := hinsert false data _ hstart hothers
  -- The state between the two steps of the insert, from which the rest is computed.
  have hw' : w' =
      (w.withClient false ⟨.standard, some ⟨"t", data, read, _, hlaidOut⟩⟩).run others :=
    congrArg (fun w : Sharing Bool => w.run others) (step_startInsert hstart false)
  have hall : w.run all = w'.step false .finishInsert := rfl
  have hstored : w'.shared.store.find "t" = .ok ⟨wider, Store.noRows wider⟩ := by
    rw [hw']
    rfl
  have hfinish : (PendingInsert.mk "t" data read _ hlaidOut).finish.result w'.shared = .ok () := by
    rw [hw']
    rfl
  have hresult : (withConfig .standard (execute ⟨u, .table⟩ .unbounded)).result
      (w.run all).shared = .ok r := by
    rw [hall, hw']
    rfl
  have hstored' : (w.run all).shared.store.find "t" =
      .ok ⟨wider, .ofBatch ⟨wider.types, [[int 1, int 2]]⟩⟩ := by
    rw [hall, hw']
    rfl
  obtain ⟨t, t', ht, ht', -, -, hnamed⟩ := hadded hfinish
  obtain rfl : _ = t := Except.ok.inj (hstored.symm.trans ht)
  obtain ⟨stored, hfind, -, hshown⟩ := (hexecute .standard handle hhandle).1 ["b"] _ _ _ hu
    .standard .unbounded r hresult
  obtain rfl : _ = stored := Except.ok.inj (hstored'.symm.trans hfind)
  exact ⟨hw, ⟨_, hstart, hothers, hfinish, _, t', ht, ht', rfl, hnamed rfl⟩, hhandle, hu, hresult,
    _, hfind, rfl, hshown rfl⟩

/-- The table is made anew with the same columns in another order. The values that are added to
either column are those meant for the other one, and a handle on the old table shows one column
under the name of the other. -/
theorem not_columns_keep_names :
    let n : Int → Int64Value := Bounded.clamp _ _ (by decide)
    let int : Int → Scalar := fun v => .int .int64 (n v)
    let read : Schema := ⟨[("a", .int64), ("b", .int64)], by decide⟩
    let swapped : Schema := ⟨[("b", .int64), ("a", .int64)], by decide⟩
    let created := (Session.start ⟨true, .ansi⟩).runCalls [.create "t" read none .error]
    let w : Sharing Bool := ⟨created, fun _ => ⟨.standard, none⟩⟩
    let data : Source := ⟨[.ofInt64s "a" [n 1], .ofInt64s "b" [n 2]]⟩
    let w' := (w.step false (.startInsert "t" data)).step true
      (.call (.createTable "t" swapped .replace))
    let t : StoredTable := ⟨swapped, Store.noRows swapped⟩
    let t' : StoredTable := ⟨swapped, .ofBatch ⟨swapped.types, [[int 1, int 2]]⟩⟩
    let handle : Table := ⟨.node (.scan "t") ⟨0⟩ read [], .ofRight "_right"⟩
    let u : Table := ⟨.node (.project [.column (some ⟨0⟩) "a"]) ⟨1⟩ ⟨[("a", .int64)], by decide⟩
      [handle.root], handle.suffixes⟩
    let r : QueryResult := ⟨u.schema, .batch ⟨[.int64], [[int 1]]⟩⟩
    w'.shared.store.find "t" = .ok t ∧
      (w'.step false .finishInsert).shared.store.find "t" = .ok t' ∧ ¬ t.AddedBy swapped data t' ∧
      (table "t").result w.shared = .ok handle ∧ (handle.selectColumns ["a"]).Gives ⟨1⟩ u ⟨2⟩ ∧
      (execute ⟨u, .table⟩ .unbounded).result (w'.step false .finishInsert).shared = .ok r ∧
      ¬ t'.ShownBy swapped ["a"] none r := by
  intro n int read swapped created w data w' t t' handle u r
  have hlaidOut : data.toBatch read = .ok ⟨read.types, [[int 1, int 2]]⟩ := rfl
  have hstart : (PendingInsert.start "t" data).result w.shared =
      .ok ⟨"t", data, read, _, hlaidOut⟩ := by
    rw [PendingInsert.result_start]
    exact PendingInsert.ofSource_eq_ok (checkColumns_of_names "t" rfl) hlaidOut
  have hw' : w' = (w.withClient false ⟨.standard, some ⟨"t", data, read, _, hlaidOut⟩⟩).step true
      (.call (.createTable "t" swapped .replace)) :=
    congrArg (fun w : Sharing Bool => w.step true (.call (.createTable "t" swapped .replace)))
      (step_startInsert hstart false)
  have hne : int 1 ≠ int 2 := by
    intro h
    have hvalue := congrArg Bounded.val (eq_of_heq (Scalar.int.inj h).2)
    exact absurd hvalue (by decide)
  clear_value w'
  subst hw'
  refine ⟨rfl, rfl, ?_, rfl, rfl, rfl, ?_⟩
  · rintro ⟨-, rows, hrows, hvalues⟩
    cases hrows
    obtain ⟨column, values, hcolumn, hscalars, hread⟩ := hvalues "a" (by decide)
    cases hcolumn
    cases hscalars
    exact hne (List.cons.inj hread).1.symm
  · rintro ⟨-, b, hb, hrows⟩
    cases hb
    exact hne ((List.forall₂_cons.mp hrows).1 "a" List.mem_cons_self)

end Sharing

end TableQuery
