import TableQuery.Proofs.Session.Ingest

/-! # Verbose sessions

A verbose session reports the queries that it sends to its store. Two sessions that differ in this
setting and in their logs only are alike (`Session.Alike`), and a call of a client does the same in
both (`SessionCall.sameAt_run`): the same answer comes back and the sessions stay alike. There is
one exception. The report of a table that is created is its SQL, in which every type has a name, and
a type with an unknown part has none (`Sql.Dialect.decides_createTable`); a verbose session then
gives an error in place of the table. The main statement is `Session.verbose_reports_only`: a
sequence of calls that creates no such table is answered alike, and the exception is spelled out. -/

namespace TableQuery

/-! ### Types with a name -/

namespace DataType

mutual

/-- No part of the type is unknown. -/
def isKnown : DataType → Bool
  | .null => true
  | .base t _ => t ≠ .unknown
  | .list e _ => isKnown e
  | .struct fs _ => fieldsKnown fs
  | .map k v _ => isKnown k && isKnown v

def fieldsKnown : List (String × DataType) → Bool
  | [] => true
  | (_, t) :: r => isKnown t && fieldsKnown r

end

end DataType

/-- The type of every column is known in all parts. -/
def Schema.Known (schema : Schema) : Prop := ∀ field ∈ schema.fields, field.2.isKnown = true

instance (schema : Schema) : Decidable schema.Known :=
  inferInstanceAs (Decidable (∀ field ∈ schema.fields, field.2.isKnown = true))

namespace Sql

open Result

theorem decides_baseTypeName (t : BaseType) : (baseTypeName t).Decides (t ≠ .unknown)
    (fun _ => True) (· = .plan .noSqlType) := by
  by_cases h : t = .unknown
  · subst h
    exact .of_error rfl rfl (not_not.mpr rfl)
  · have hname : ∃ text, baseTypeName t = .ok text := by
      unfold baseTypeName
      split <;> first | exact ⟨_, rfl⟩ | exact absurd rfl h
    obtain ⟨text, hname⟩ := hname
    exact .of_ok hname trivial h

namespace Dialect

variable (d : Dialect)

mutual

/-- **A type has a name** exactly if no part of it is unknown. -/
theorem decides_typeName : ∀ t : DataType, (d.typeName t).Decides (t.isKnown = true)
    (fun _ => True) (· = .plan .noSqlType)
  | .null => .of_ok rfl trivial rfl
  | .base t _ => by
    rw [typeName, DataType.isKnown]
    exact (decides_baseTypeName t).congr decide_eq_true_iff.symm
  | .list e _ => by
    rw [typeName, DataType.isKnown]
    exact (decides_typeName e).bind_pure fun _ _ => trivial
  | .struct fs _ => by
    rw [typeName, DataType.isKnown]
    exact (decides_fieldTypeNames fs).bind_pure fun _ _ => trivial
  | .map k v _ => by
    rw [typeName, DataType.isKnown]
    have hvalue (key : String) : Decides (do
        let value ← d.typeName v
        return "MAP(" ++ key ++ ", " ++ value ++ ")") (v.isKnown = true) (fun _ => True)
          (· = .plan .noSqlType) := (decides_typeName v).bind_pure fun _ _ => trivial
    exact ((decides_typeName k).bind fun key _ => hvalue key).congr (by simp)

theorem decides_fieldTypeNames : ∀ fs : List (String × DataType), (d.fieldTypeNames fs).Decides
    (DataType.fieldsKnown fs = true) (fun _ => True) (· = .plan .noSqlType)
  | [] => .of_ok rfl trivial rfl
  | (n, t) :: r => by
    rw [fieldTypeNames, DataType.fieldsKnown]
    have htail (head : String) : Decides (do
        let tail ← d.fieldTypeNames r
        return (d.name n ++ " " ++ head) :: tail) (DataType.fieldsKnown r = true) (fun _ => True)
          (· = .plan .noSqlType) := (decides_fieldTypeNames r).bind_pure fun _ _ => trivial
    exact ((decides_typeName t).bind fun head _ => htail head).congr (by simp)

end

/-- **The statement that creates a table** can be written exactly if its types are known. -/
theorem decides_createTable (table : String) (schema : Schema) :
    (d.createTable table schema).Decides schema.Known (fun _ => True) (· = .plan .noSqlType) := by
  have hcolumn : ∀ field ∈ schema.fields, (d.columnDefinition field).Decides
      (field.2.isKnown = true) (fun _ => True) (· = .plan .noSqlType) := fun field _ =>
    (d.decides_typeName field.2).bind_pure fun _ _ => trivial
  exact (Decides.mapM hcolumn).bind_pure fun _ _ => trivial

end Dialect

end Sql

/-! ### Sessions alike -/

/-- Two sessions that differ at most in whether they report and in what they reported. -/
structure Session.Alike (s t : Session) : Prop where
  capabilities : s.capabilities = t.capabilities
  defaultLimit : s.config.defaultLimit = t.config.defaultLimit
  joinSuffix : s.config.joinSuffix = t.config.joinSuffix
  store : s.store = t.store
  executed : s.executed = t.executed
  nextRef : s.nextRef = t.nextRef

namespace SessionStep

variable {α β : Type} {x y : SessionStep α} {s t : Session}

/-- Two steps give the same in two sessions and leave sessions behind that are alike. -/
structure SameAt (x y : SessionStep α) (s t : Session) : Prop where
  result : x.result s = y.result t
  after : (x.after s).Alike (y.after t)

theorem SameAt.bind {f g : α → SessionStep β} (h : SameAt x y s t)
    (hfg : ∀ a s' t', s'.Alike t' → SameAt (f a) (g a) s' t') :
    SameAt (x >>= f) (y >>= g) s t := by
  cases hx : x.result s with
  | error e =>
    obtain ⟨hresult, hafter⟩ := bind_of_error hx f
    obtain ⟨hresult', hafter'⟩ := bind_of_error (h.result.symm.trans hx) g
    refine ⟨hresult.trans hresult'.symm, ?_⟩
    rw [hafter, hafter']
    exact h.after
  | ok a =>
    have hy := h.result.symm.trans hx
    have hstep := hfg a _ _ h.after
    refine ⟨?_, ?_⟩
    · rw [result_bind, hx, result_bind, hy]
      exact hstep.result
    · rw [after_bind hx, after_bind hy]
      exact hstep.after

theorem SameAt.get_bind {f g : Session → SessionStep β} (h : SameAt (f s) (g t) s t) :
    SameAt (get >>= f) (get >>= g) s t := ⟨h.result, h.after⟩

theorem sameAt_pure (h : s.Alike t) (a : α) : SameAt (pure a) (pure a) s t := ⟨rfl, h⟩

end SessionStep

namespace Session

open SessionStep

variable {α : Type} {s t : Session} (h : s.Alike t)

include h

/-! ### Parts of steps -/

theorem sameAt_ofResult (r : Result α) : SameAt (ofResult r) (ofResult r) s t := ⟨rfl, h⟩

theorem sameAt_build (b : Build α) : SameAt (build b) (build b) s t := by
  constructor
  · rw [result_build, result_build, h.nextRef]
  · rw [after_build, after_build, h.nextRef]
    exact { h with nextRef := rfl }

theorem sameAt_report (text : String) : SameAt (report text) (report text) s t := by
  obtain ⟨log, hs⟩ := after_report s text
  obtain ⟨log', ht⟩ := after_report t text
  refine ⟨rfl, ?_⟩
  rw [hs, ht]
  exact { h with }

theorem sameAt_changeStore (change : Store → Result Unit × Store) :
    SameAt (changeStore change) (changeStore change) s t := by
  constructor
  · rw [result_changeStore, result_changeStore, h.store]
  · rw [after_changeStore, after_changeStore, h.store]
    exact { h with store := rfl }

theorem sameAt_withSuffix (table : Table) : SameAt (withSuffix table) (withSuffix table) s t := by
  unfold withSuffix
  apply SameAt.get_bind
  rw [h.joinSuffix]
  exact sameAt_pure h _

/-! ### Operations -/

theorem sameAt_table (name : String) : SameAt (table name) (table name) s t := by
  unfold table
  apply SameAt.get_bind
  rw [h.capabilities]
  refine (sameAt_report h _).bind fun _ s₁ t₁ h₁ => ?_
  apply SameAt.get_bind
  rw [h₁.store]
  refine (sameAt_ofResult h₁ _).bind fun schema s₂ t₂ h₂ => ?_
  exact (sameAt_build h₂ _).bind fun scan s₃ t₃ h₃ => sameAt_withSuffix h₃ scan

theorem sameAt_sql (query : String) : SameAt (sql query) (sql query) s t := by
  unfold sql
  refine (sameAt_report h _).bind fun _ s₁ t₁ h₁ => ?_
  apply SameAt.get_bind
  rw [h₁.store]
  refine (sameAt_ofResult h₁ _).bind fun schema s₂ t₂ h₂ => ?_
  exact (sameAt_build h₂ _).bind fun rows s₃ t₃ h₃ => sameAt_withSuffix h₃ rows

theorem sameAt_compile (q : Query) (choice : LimitChoice) :
    SameAt (compile q choice) (compile q choice) s t := by
  have hcompile : q.compile s.capabilities s.config choice =
      q.compile t.capabilities t.config choice := by
    unfold Query.compile
    rw [h.capabilities, h.defaultLimit]
  unfold compile
  apply SameAt.get_bind
  rw [hcompile]
  exact sameAt_build h _

theorem sameAt_run (q : CompiledQuery) : SameAt (run q) (run q) s t := by
  unfold run
  have hexecuted : SameAt (modify fun s => { s with executed := s.executed ++ [q.sql] })
      (modify fun s => { s with executed := s.executed ++ [q.sql] }) s t := by
    refine ⟨rfl, ?_⟩
    rw [after_modify, after_modify]
    exact { h with executed := congrArg (· ++ [q.sql]) h.executed }
  refine hexecuted.bind fun _ s₁ t₁ h₁ => ?_
  apply SameAt.get_bind
  rw [h₁.store]
  exact sameAt_ofResult h₁ _

theorem sameAt_execute (q : Query) (choice : LimitChoice) :
    SameAt (execute q choice) (execute q choice) s t := by
  unfold execute
  refine (sameAt_compile h q choice).bind fun compiled s₁ t₁ h₁ => ?_
  refine (sameAt_report h₁ _).bind fun _ s₂ t₂ h₂ => ?_
  refine (sameAt_run h₂ compiled).bind fun batch s₃ t₃ h₃ => ?_
  split
  · exact sameAt_ofResult h₃ _
  · exact (sameAt_ofResult h₃ _).bind fun output s₄ t₄ h₄ => sameAt_pure h₄ _

theorem sameAt_insert (name : String) (data : Source) :
    SameAt (insert name data) (insert name data) s t := by
  unfold insert
  apply SameAt.get_bind
  rw [h.store]
  refine (sameAt_ofResult h _).bind fun schema s₁ t₁ h₁ => ?_
  refine (sameAt_ofResult h₁ _).bind fun _ s₂ t₂ h₂ => ?_
  exact (sameAt_ofResult h₂ _).bind fun batch s₃ t₃ h₃ => sameAt_changeStore h₃ _

end Session

/-! ### Creating tables -/

namespace Session

open SessionStep

/-- Creating a table without a report. -/
def createSilently (name : String) (schema : Schema) (data : Option Batch)
    (onConflict : OnConflict) : SessionStep Table := do
  changeStore fun s => Store.lift (s.create name schema data onConflict)
  table name

variable {s t : Session} {name : String} {schema : Schema} {data : Option Batch}
  {onConflict : OnConflict}

theorem createWith_of_quiet (hquiet : s.config.verbose = false) :
    (createWith name schema data onConflict).run.run s =
      (createSilently name schema data onConflict).run.run s := by
  unfold createWith
  rw [run_bind]
  change (ite (s.config.verbose = true) _ _ : SessionStep Table).run.run s = _
  rw [hquiet]
  rfl

/-- Where the SQL of the table can be written, it is reported and the table is created. -/
theorem createWith_of_createTable (hverbose : s.config.verbose = true) {text : String}
    (htext : s.capabilities.dialect.createTable name schema = .ok text) :
    (createWith name schema data onConflict).run.run s =
      (createSilently name schema data onConflict).run.run { s with log := s.log ++ [text] } := by
  unfold createWith
  rw [run_bind]
  change (ite (s.config.verbose = true) _ _ : SessionStep Table).run.run s = _
  rw [if_pos hverbose, run_bind]
  change (ofResult (s.capabilities.dialect.createTable name schema) >>= _ :
    SessionStep Table).run.run s = _
  rw [htext, run_bind]
  change (report text >>= _ : SessionStep Table).run.run s = _
  rw [run_bind]
  change (createSilently name schema data onConflict).run.run ((report text).after s) = _
  exact congrArg _ (if_pos hverbose)

/-- **Where the SQL of the table cannot be written**, nothing is created. -/
theorem createWith_of_not_known (hverbose : s.config.verbose = true) (hschema : ¬ schema.Known) :
    (createWith name schema data onConflict).run.run s = (.error (.plan .noSqlType), s) := by
  obtain ⟨e, htext, rfl⟩ :=
    (s.capabilities.dialect.decides_createTable name schema).error hschema
  unfold createWith
  rw [run_bind]
  change (ite (s.config.verbose = true) _ _ : SessionStep Table).run.run s = _
  rw [if_pos hverbose, run_bind]
  change (ofResult (s.capabilities.dialect.createTable name schema) >>= _ :
    SessionStep Table).run.run s = _
  rw [htext]
  rfl

theorem createWith_of_known (hschema : schema.Known) (s : Session) (name : String)
    (data : Option Batch) (onConflict : OnConflict) : ∃ log,
      (createWith name schema data onConflict).run.run s =
        (createSilently name schema data onConflict).run.run { s with log } := by
  by_cases hverbose : s.config.verbose = true
  · obtain ⟨text, htext, -⟩ := (s.capabilities.dialect.decides_createTable name schema).ok hschema
    exact ⟨_, createWith_of_createTable hverbose htext⟩
  · exact ⟨s.log, createWith_of_quiet (Bool.eq_false_iff.mpr hverbose)⟩

/-- Creating a table is creating it without a report, or fails before that. -/
theorem createWith_cases (s : Session) (name : String) (schema : Schema) (data : Option Batch)
    (onConflict : OnConflict) :
    (∃ log, (createWith name schema data onConflict).run.run s =
      (createSilently name schema data onConflict).run.run { s with log }) ∨
    (createWith name schema data onConflict).run.run s = (.error (.plan .noSqlType), s) := by
  by_cases hschema : schema.Known
  · exact .inl (createWith_of_known hschema s name data onConflict)
  · by_cases hverbose : s.config.verbose = true
    · exact .inr (createWith_of_not_known hverbose hschema)
    · exact .inl ⟨s.log, createWith_of_quiet (Bool.eq_false_iff.mpr hverbose)⟩

theorem sameAt_createSilently (h : s.Alike t) (name : String) (schema : Schema)
    (data : Option Batch) (onConflict : OnConflict) :
    SameAt (createSilently name schema data onConflict)
      (createSilently name schema data onConflict) s t :=
  (sameAt_changeStore h _).bind fun _ _ _ h => sameAt_table h name

theorem sameAt_createWith (h : s.Alike t) (hschema : schema.Known) :
    SameAt (createWith name schema data onConflict) (createWith name schema data onConflict)
      s t := by
  obtain ⟨log, hs⟩ := createWith_of_known hschema s name data onConflict
  obtain ⟨log', ht⟩ := createWith_of_known hschema t name data onConflict
  have hlogs : Alike { s with log } { t with log := log' } := { h with }
  have hsame := sameAt_createSilently hlogs name schema data onConflict
  constructor
  · rw [result, hs, result, ht]
    exact hsame.result
  · rw [after, hs, after, ht]
    exact hsame.after

/-- The schema and the rows of a table from client data. -/
def tableOf (name : String) (data : Source) (schema : Option Schema) : Result (Schema × Batch) := do
  let schema ← match schema with
    | some s => .ok s
    | none => data.inferSchema
  checkColumns name schema data
  return (schema, ← data.toBatch schema)

theorem laidOut_of_tableOf {data : Source} {given : Option Schema} {p : Schema × Batch}
    (h : tableOf name data given = .ok p) : p.2.LaidOut p.1 := by
  have hrows : ∀ schema : Schema, (do
      checkColumns name schema data
      return (schema, ← data.toBatch schema)) = .ok p → p.2.LaidOut p.1 := by
    intro schema h
    obtain ⟨_, -, h⟩ := Result.bind_eq_ok_iff.mp h
    obtain ⟨b, hb, h⟩ := Result.bind_eq_ok_iff.mp h
    cases h
    exact Source.laidOut_of_toBatch hb
  cases given with
  | some schema => exact hrows schema h
  | none =>
    obtain ⟨schema, -, h⟩ := Result.bind_eq_ok_iff.mp h
    exact hrows schema h

/-- A table is created from client data as soon as its schema and its rows are known. -/
theorem createTableFrom_eq_bind (name : String) (data : Source) (schema : Option Schema)
    (onConflict : OnConflict) : createTableFrom name data schema onConflict =
      ofResult (tableOf name data schema) >>= fun p =>
        createWith name p.1 (some p.2) onConflict := by
  have hgiven : ∀ schema : Schema,
      (do
        ofResult (checkColumns name schema data)
        let batch ← ofResult (data.toBatch schema)
        createWith name schema (some batch) onConflict) =
      (ofResult (do
        checkColumns name schema data
        return (schema, ← data.toBatch schema)) >>= fun p : Schema × Batch =>
          createWith name p.1 (some p.2) onConflict) := by
    intro schema
    cases checkColumns name schema data with
    | error e => rfl
    | ok u => cases data.toBatch schema <;> rfl
  unfold createTableFrom tableOf
  cases schema with
  | some schema => exact hgiven schema
  | none =>
    cases data.inferSchema with
    | error e => rfl
    | ok schema => exact hgiven schema

end Session

/-! ### Calls -/

/-- A call of a client on its session. -/
inductive SessionCall where
  | table (name : String)
  | sql (query : String)
  /-- Tables made of other ones, without the store. -/
  | derive (table : Build Table)
  | createTable (name : String) (schema : Schema) (onConflict : OnConflict)
  | createTableFrom (name : String) (data : Source) (schema : Option Schema)
      (onConflict : OnConflict)
  | insert (name : String) (data : Source)
  | execute (q : Query) (choice : LimitChoice)
  | truncate (name : String)
  | drop (name : String) (force : Bool)

/-- What a call gives back. -/
inductive SessionAnswer where
  | done
  | table (t : Table)
  | result (r : QueryResult)

namespace SessionCall

/-- The call as a step of the session. -/
def run : SessionCall → SessionStep SessionAnswer
  | table name => return .table (← Session.table name)
  | sql query => return .table (← Session.sql query)
  | derive t => return .table (← Session.build t)
  | createTable name schema onConflict =>
    return .table (← Session.createTable name schema onConflict)
  | createTableFrom name data schema onConflict =>
    return .table (← Session.createTableFrom name data schema onConflict)
  | insert name data => do
    Session.insert name data
    return .done
  | execute q choice => return .result (← Session.execute q choice)
  | truncate name => do
    Session.truncate name
    return .done
  | drop name force => do
    Session.drop name force
    return .done

/-- The schema that the call gives to a new table. -/
def schema? : SessionCall → Option Schema
  | createTable _ schema _ => some schema
  | createTableFrom name data schema _ => (Session.tableOf name data schema).toOption.map Prod.fst
  | _ => none

/-- If the call creates a table, its types are known. -/
def CreatesKnown (c : SessionCall) : Prop := ∀ schema ∈ c.schema?, schema.Known

instance (c : SessionCall) : Decidable c.CreatesKnown :=
  inferInstanceAs (Decidable (∀ schema ∈ c.schema?, schema.Known))

open SessionStep

variable {s t : Session}

/-- **A call does the same** in two sessions alike. -/
theorem sameAt_run (h : s.Alike t) {c : SessionCall} (hc : c.CreatesKnown) :
    SameAt c.run c.run s t := by
  cases c with
  | table name => exact (Session.sameAt_table h name).bind fun _ _ _ h => sameAt_pure h _
  | sql query => exact (Session.sameAt_sql h query).bind fun _ _ _ h => sameAt_pure h _
  | derive t => exact (Session.sameAt_build h t).bind fun _ _ _ h => sameAt_pure h _
  | createTable name schema onConflict =>
    exact (Session.sameAt_createWith h (hc schema rfl)).bind fun _ _ _ h => sameAt_pure h _
  | createTableFrom name data schema onConflict =>
    have hcreate : SameAt (Session.createTableFrom name data schema onConflict)
        (Session.createTableFrom name data schema onConflict) s t := by
      rw [Session.createTableFrom_eq_bind]
      cases htable : Session.tableOf name data schema with
      | error e => exact ⟨rfl, h⟩
      | ok p =>
        have hschema : p.1.Known := hc p.1 (by rw [schema?, htable]; rfl)
        exact ⟨(Session.sameAt_createWith h hschema).result,
          (Session.sameAt_createWith h hschema).after⟩
    exact hcreate.bind fun _ _ _ h => sameAt_pure h _
  | insert name data =>
    exact (Session.sameAt_insert h name data).bind fun _ _ _ h => sameAt_pure h _
  | execute q choice =>
    exact (Session.sameAt_execute h q choice).bind fun _ _ _ h => sameAt_pure h _
  | truncate name => exact (Session.sameAt_changeStore h _).bind fun _ _ _ h => sameAt_pure h _
  | drop name force => exact (Session.sameAt_changeStore h _).bind fun _ _ _ h => sameAt_pure h _

/-- **A call that creates a table with an unknown part** gives an error in a verbose session and
leaves it as it was. -/
theorem run_of_not_createsKnown {c : SessionCall} (hc : ¬ c.CreatesKnown)
    (hverbose : s.config.verbose = true) :
    c.run.result s = .error (.plan .noSqlType) ∧ c.run.after s = s := by
  have hcreate : ∃ name schema data onConflict, ¬ schema.Known ∧ c.run.run.run s =
      ((Session.createWith name schema data onConflict) >>=
        fun t => pure (.table t) : SessionStep SessionAnswer).run.run s := by
    cases c with
    | createTable name schema onConflict =>
      refine ⟨name, schema, none, onConflict, fun hschema => hc ?_, rfl⟩
      rintro _ ⟨⟩
      exact hschema
    | createTableFrom name data schema onConflict =>
      cases htable : Session.tableOf name data schema with
      | error e =>
        have hnone : (SessionCall.createTableFrom name data schema onConflict).schema? = none := by
          rw [schema?, htable]
          rfl
        exact absurd (fun _ hschema => by simp [hnone] at hschema) hc
      | ok p =>
        refine ⟨name, p.1, some p.2, onConflict, fun hschema => hc ?_, ?_⟩
        · intro schema' hschema'
          rw [schema?, htable] at hschema'
          cases hschema'
          exact hschema
        · rw [run, Session.createTableFrom_eq_bind, htable]
          rfl
    | _ => exact absurd (fun _ hschema => nomatch hschema) hc
  obtain ⟨name, schema, data, onConflict, hschema, hrun⟩ := hcreate
  rw [run_bind, Session.createWith_of_not_known hverbose hschema] at hrun
  exact ⟨congrArg Prod.fst hrun, congrArg Prod.snd hrun⟩

end SessionCall

/-! ### Sequences of calls -/

namespace Session

open SessionStep

/-- What a sequence of calls gives, and the store after each of them. -/
def answers (s : Session) : List SessionCall → List (Result SessionAnswer × Store)
  | [] => []
  | c :: calls => (c.run.result s, (c.run.after s).store) :: answers (c.run.after s) calls

/-- The session after a sequence of calls. -/
def afterCalls (s : Session) (calls : List SessionCall) : Session :=
  calls.foldl (fun s c => c.run.after s) s

theorem answers_congr {s t : Session} (h : s.Alike t) {calls : List SessionCall}
    (hcalls : ∀ c ∈ calls, c.CreatesKnown) :
    s.answers calls = t.answers calls ∧ (s.afterCalls calls).Alike (t.afterCalls calls) := by
  induction calls generalizing s t with
  | nil => exact ⟨rfl, h⟩
  | cons c calls ih =>
    obtain ⟨hc, hcalls⟩ := List.forall_mem_cons.mp hcalls
    have hstep := SessionCall.sameAt_run h hc
    obtain ⟨hanswers, hafter⟩ := ih hstep.after hcalls
    refine ⟨?_, hafter⟩
    rw [answers, answers, hstep.result, hstep.after.store, hanswers]

/-- **A verbose session only reports.** A sequence of calls has the same answers in two sessions
that differ in this only, and the same stores after each call, if the types of the tables that it
creates are known. A call that creates a table of which a type has an unknown part is refused in a
verbose session, which stays as it was. -/
theorem verbose_reports_only {s t : Session} (h : s.Alike t) :
    (∀ calls : List SessionCall, (∀ c ∈ calls, c.CreatesKnown) →
      s.answers calls = t.answers calls ∧ (s.afterCalls calls).Alike (t.afterCalls calls)) ∧
    (t.config.verbose = true → ∀ c : SessionCall, ¬ c.CreatesKnown →
      c.run.result t = .error (.plan .noSqlType) ∧ c.run.after t = t) :=
  ⟨fun _ hcalls => answers_congr h hcalls,
    fun hverbose _ hc => SessionCall.run_of_not_createsKnown hc hverbose⟩

/-- A table of lists of numbers is created, extended, read and removed. The verbose session has
three reports, and it refuses a table of lists in which numbers and texts are mixed. -/
theorem verbose_reports_only_lists :
    let one : Scalar := .int .int64 ⟨1, by decide, by decide⟩
    let data : Source := ⟨[.ofScalars "x" [.list [one], .list []]]⟩
    let mixed : SessionCall :=
      .createTableFrom "u" ⟨[.ofScalars "x" [.list [one, .utf8 "a"]]]⟩ none .error
    let s := Session.start ⟨true, .ansi⟩
    let t := { s with config := { s.config with verbose := true } }
    let schema : Schema := ⟨[("x", .list (.base (.int .int64) false) true)], by decide⟩
    let rows : Table := ⟨.node (.scan "t") ⟨0⟩ schema [], .ofRight "_right"⟩
    let calls := [.createTableFrom "t" data none .error, .insert "t" data,
      .execute ⟨rows, .table⟩ .unbounded, .drop "t" false]
    s.answers calls = t.answers calls ∧ (s.answers calls).all (·.1.isOk) = true ∧
      (t.afterCalls calls).log.length = 3 ∧ ¬ mixed.CreatesKnown ∧
      mixed.run.result t = .error (.plan .noSqlType) := by
  intro one data mixed s t schema rows calls
  have h : s.Alike t := ⟨rfl, rfl, rfl, rfl, rfl, rfl⟩
  obtain ⟨hcalls, hrefused⟩ := verbose_reports_only h
  have hknown : ∀ c ∈ calls, c.CreatesKnown := by decide +kernel
  have hmixed : ¬ mixed.CreatesKnown := by decide +kernel
  exact ⟨(hcalls calls hknown).1, by decide +kernel, by decide +kernel, hmixed,
    (hrefused rfl mixed hmixed).1⟩

/-- Lists of a number and a text have no common type. The quiet session has the table, the verbose
one an error. -/
theorem not_verbose_reports_only : ¬ ∀ s t : Session, s.Alike t → ∀ calls : List SessionCall,
    s.answers calls = t.answers calls := by
  intro h
  let one : Scalar := .int .int64 ⟨1, by decide, by decide⟩
  let mixed : Source := ⟨[.ofScalars "x" [.list [one, .utf8 "a"]]]⟩
  let s := Session.start ⟨true, .ansi⟩
  let t := { s with config := { s.config with verbose := true } }
  have hanswers := h s t ⟨rfl, rfl, rfl, rfl, rfl, rfl⟩ [.createTableFrom "t" mixed none .error]
  have hs : (s.answers [.createTableFrom "t" mixed none .error]).map (·.1.isOk) = [true] := by
    decide +kernel
  have ht : (t.answers [.createTableFrom "t" mixed none .error]).map (·.1.isOk) = [false] := by
    decide +kernel
  rw [hanswers, ht] at hs
  exact absurd hs (by decide)

end Session

end TableQuery
