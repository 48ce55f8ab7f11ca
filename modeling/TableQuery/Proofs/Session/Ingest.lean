import TableQuery.Proofs.Session.Steps
import TableQuery.Proofs.Store.Inferred
import TableQuery.Proofs.Store.Schemas

/-! # Reading back what was put in

A table that is created from client data, without a schema of its own, gets the schema that is
inferred from the data and the rows that the data is turned into. Every step on the way takes them
as they are: the session's check of the columns, the checks of the store, the scan and the check of
the result. The main statement is `createTableFrom_readBack`: the steps all succeed, and reading the
table gives the rows of the data. -/

namespace TableQuery

namespace Store

theorem create_eq_ok {s : Store} {name : String} {schema : Schema} {data rows : Batch}
    {onConflict : OnConflict} (hfree : s.tables.lookup name = none ∨ onConflict = .replace)
    (h : conform name schema data = .ok rows) :
    s.create name schema (some data) onConflict =
      (.ok (), ⟨put name ⟨schema, .ofBatch rows⟩ s.tables⟩) := by
  have hcond : ¬ ((s.tables.lookup name).isSome && onConflict ≠ .replace) = true := by
    rcases hfree with hfree | hfree <;> simp [hfree]
  rw [create, firstRows, h]
  exact if_neg hcond

end Store

namespace Session

open SessionStep

theorem difference_self (names : List String) : difference names names = [] := by
  have hnone : names.filter (fun n => !names.contains n) = [] := by
    rw [List.filter_eq_nil_iff]
    intro n hn
    simp [hn]
  rw [difference, hnone, List.eraseDups_nil, List.mergeSort_nil]

theorem checkColumns_of_names (name : String) {schema : Schema} {data : Source}
    (h : schema.names = data.names) : checkColumns name schema data = .ok () := by
  rw [checkColumns, h, difference_self]
  simp

/-! ### Tables of the store -/

variable {s : Session}

/-- **A table of the store** is a scan with its schema. -/
theorem result_table {name : String} {schema : Schema}
    (h : s.store.schemaOf name = .ok schema) : (table name).result s =
      .ok ⟨.node (.scan name) s.nextRef schema [], .ofRight s.config.joinSuffix⟩ := by
  obtain ⟨log, hlog⟩ := after_report s ("DESCRIBE " ++ s.capabilities.dialect.name name)
  unfold table
  simp only [result_bind, result_get, after_get, Result.ok_bind, result_report, hlog,
    result_ofResult, after_ofResult, h]
  rfl

theorem store_after_table {name : String} {schema : Schema}
    (h : s.store.schemaOf name = .ok schema) : ((table name).after s).store = s.store := by
  obtain ⟨log, hlog⟩ := after_report s ("DESCRIBE " ++ s.capabilities.dialect.name name)
  unfold table
  rw [after_bind (result_get s), after_get, after_bind (result_report s _), hlog,
    after_bind (result_get _), after_get, after_ofResult_bind _ h]
  rfl

/-- **Reading a table** gives its rows. -/
theorem result_readTable {name : String} {t : StoredTable}
    (ht : s.store.find name = .ok t) (hdata : t.data.toBatch.LaidOut t.schema) :
    (do execute ⟨← table name, .table⟩ .unbounded : SessionStep QueryResult).result s =
      .ok ⟨t.schema, .batch t.data.toBatch⟩ := by
  have hschema : s.store.schemaOf name = .ok t.schema := by rw [Store.schemaOf, ht]; rfl
  have hscan : s.store.scan name = .ok t.data.toBatch := by rw [Store.scan, ht]; rfl
  have hstore := store_after_table hschema
  rw [result_bind, result_table hschema, Result.ok_bind]
  generalize (table name).after s = s' at hstore ⊢
  obtain ⟨sql, hcompile⟩ : ∃ sql, (compile ⟨⟨.node (.scan name) s.nextRef t.schema [],
      .ofRight s.config.joinSuffix⟩, .table⟩ .unbounded).result s' =
        .ok ⟨sql, .node (.scan name) t.schema [], t.schema, .table, none⟩ := ⟨_, rfl⟩
  have hrun : (OperatorPlan.node (.scan name) t.schema []).run s'.store.provider =
      .ok t.data.toBatch := by
    rw [hstore]
    exact hscan
  rw [result_execute, hcompile, Result.ok_bind, hrun, Result.ok_bind,
    if_neg (not_not.mpr hdata.numColumns_eq)]
  rfl

/-! ### Tables from client data -/

/-- Creating a table in a session that is not verbose changes the store and reads the table. -/
theorem createWith_eq (hquiet : s.config.verbose = false) {name : String}
    {schema : Schema} {data : Option Batch} {onConflict : OnConflict} {store : Store}
    (h : s.store.create name schema data onConflict = (.ok (), store)) :
    (createWith name schema data onConflict).result s = (table name).result { s with store } ∧
      (createWith name schema data onConflict).after s = (table name).after { s with store } := by
  have hchange : Store.lift (s.store.create name schema data onConflict) = (.ok (), store) :=
    congrArg Store.lift h
  have hresult : (changeStore fun s => Store.lift (s.create name schema data onConflict)).result s =
      .ok () := congrArg Prod.fst hchange
  have hafter : (changeStore fun s => Store.lift (s.create name schema data onConflict)).after s =
      { s with store } := congrArg (fun r => { s with store := r.2 }) hchange
  unfold createWith
  constructor
  · rw [result_bind, result_get, Result.ok_bind, after_get, hquiet, if_neg Bool.false_ne_true,
      result_bind, hresult, Result.ok_bind, hafter]
  · rw [after_bind (result_get s), after_get, hquiet, if_neg Bool.false_ne_true,
      after_bind hresult, hafter]

/-- Creating a table from client data without a schema creates it from the rows of the data. -/
theorem createTableFrom_eq {data : Source} {schema : Schema} {b : Batch}
    (hschema : data.inferSchema = .ok schema) (hb : data.toBatch schema = .ok b) (s : Session)
    (name : String) (onConflict : OnConflict) :
    (createTableFrom name data none onConflict).result s =
        (createWith name schema (some b) onConflict).result s ∧
      (createTableFrom name data none onConflict).after s =
        (createWith name schema (some b) onConflict).after s := by
  have hcolumns := checkColumns_of_names name (Source.names_of_inferSchema hschema)
  unfold createTableFrom
  constructor
  · rw [result_bind, result_ofResult, hschema, Result.ok_bind, after_ofResult, result_bind,
      result_ofResult, hcolumns, Result.ok_bind, after_ofResult, result_bind, result_ofResult, hb,
      Result.ok_bind, after_ofResult]
  · rw [after_ofResult_bind s hschema, after_ofResult_bind s hcolumns, after_ofResult_bind s hb]

/-- **What was put in is read back**: in a session that is not verbose, client data of which a
schema is inferred and that is turned into rows for it makes a table under a name that is free or
replaced. The store takes the rows as they are, the table has the inferred schema, and reading it
gives the rows. -/
theorem createTableFrom_readBack {s : Session} (hquiet : s.config.verbose = false) {name : String}
    {data : Source} {schema : Schema} {b : Batch} (hschema : data.inferSchema = .ok schema)
    (hb : data.toBatch schema = .ok b) {onConflict : OnConflict}
    (hfree : s.store.tables.lookup name = none ∨ onConflict = .replace) :
    let create := createTableFrom name data none onConflict
    Store.conform name schema b = .ok b ∧
      (∃ t, create.result s = .ok t ∧ t.schema = schema) ∧
      (create.after s).store.schemaOf name = .ok schema ∧
      (do execute ⟨← table name, .table⟩ .unbounded : SessionStep QueryResult).result
        (create.after s) = .ok ⟨schema, .batch b⟩ := by
  intro create
  have hconform := Source.conform_of_inferSchema name hschema hb
  obtain ⟨hresult, hafter⟩ := createWith_eq hquiet (Store.create_eq_ok hfree hconform)
  obtain ⟨hcreate, hcreated⟩ := createTableFrom_eq hschema hb s name onConflict
  have hlaidOut := Source.laidOut_of_toBatch hb
  have hdata : (ColumnBatch.ofBatch b).toBatch = b :=
    ColumnBatch.toBatch_ofBatch hlaidOut.rectangular
  generalize hstore : (⟨Store.put name ⟨schema, .ofBatch b⟩ s.store.tables⟩ : Store) = store
    at hresult hafter
  have hfind : store.find name = .ok ⟨schema, .ofBatch b⟩ := by
    rw [← hstore, Store.find, Store.lookup_put]
  have htable : store.schemaOf name = .ok schema := by rw [Store.schemaOf, hfind]; rfl
  have hread : (create.after s).store = store := by
    rw [hcreated, hafter, store_after_table htable]
  have hgiven := hcreate.trans (hresult.trans (result_table htable))
  refine ⟨hconform, ⟨_, hgiven, rfl⟩, hread ▸ htable, ?_⟩
  rw [result_readTable (hread ▸ hfind) (hdata.symm ▸ hlaidOut), hdata]

/-- Whole numbers and texts with a gap, in the place of a table with other columns. -/
theorem createTableFrom_readBack_gap :
    let n : Int → Int64Value := Bounded.clamp _ _ (by decide)
    let s := (Session.start ⟨true, .ansi⟩).runCalls
      [.create "t" ⟨[("x", .date)], by decide⟩ none .error]
    let data : Source := ⟨[.ofInt64s "a" [n 1, n 2], .ofTexts "b" [some "x", none]]⟩
    let schema : Schema := ⟨[("a", DataType.int64.nonNull), ("b", .utf8)], by decide⟩
    let b : Batch := ⟨schema.types, [[.int .int64 (n 1), .utf8 "x"], [.int .int64 (n 2), .null]]⟩
    s.config.verbose = false ∧ data.inferSchema = .ok schema ∧ data.toBatch schema = .ok b ∧
      ((createTableFrom "t" data none .replace).after s).store.schemaOf "t" = .ok schema ∧
      (do execute ⟨← table "t", .table⟩ .unbounded : SessionStep QueryResult).result
        ((createTableFrom "t" data none .replace).after s) = .ok ⟨schema, .batch b⟩ := by
  intro n s data schema b
  have hquiet : s.config.verbose = false := rfl
  have hschema : data.inferSchema = .ok schema := rfl
  have hb : data.toBatch schema = .ok b := rfl
  have hfree : s.store.tables.lookup "t" = none ∨ OnConflict.replace = .replace := .inr rfl
  obtain ⟨-, -, htable, hread⟩ := createTableFrom_readBack hquiet hschema hb hfree
  exact ⟨hquiet, hschema, hb, htable, hread⟩

end Session

end TableQuery
