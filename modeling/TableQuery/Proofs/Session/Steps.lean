import TableQuery.Proofs.Relation.Built
import TableQuery.Session.Session

/-! # Steps of sessions taken apart

A step of a session gives a result and leaves a session behind. `SessionStep.result` and
`SessionStep.after` are the two parts; each operation of a session is described by them, so that a
sequence of steps is followed by rewriting. The main equation is `result_execute`: a query gives
what compiling it, running its plan on the store and checking the number of columns give. -/

namespace TableQuery

namespace SessionStep

variable {α β : Type}

/-- What the step gives. -/
def result (x : SessionStep α) (s : Session) : Result α := (x.run.run s).1

/-- The session after the step. -/
def after (x : SessionStep α) (s : Session) : Session := (x.run.run s).2

variable {s : Session}

theorem run_bind (x : SessionStep α) (f : α → SessionStep β) (s : Session) :
    (x >>= f).run.run s = match x.run.run s with
      | (.ok a, s') => (f a).run.run s'
      | (.error e, s') => (.error e, s') := by
  rw [ExceptT.run_bind, StateT.run_bind]
  change (match x.run.run s with | (r, s') => _ : Id _) = _
  obtain ⟨r, s'⟩ := x.run.run s
  cases r <;> rfl

/-- **Two steps**: the second one is taken in the session that the first one leaves behind. -/
theorem result_bind (x : SessionStep α) (f : α → SessionStep β) (s : Session) :
    (x >>= f).result s = x.result s >>= fun a => (f a).result (x.after s) := by
  rw [result, run_bind, result, after]
  obtain ⟨r, s'⟩ := x.run.run s
  cases r <;> rfl

theorem after_bind {x : SessionStep α} {a : α} (h : x.result s = .ok a) (f : α → SessionStep β) :
    (x >>= f).after s = (f a).after (x.after s) := by
  unfold result at h
  rw [after, run_bind, after, after]
  cases hx : x.run.run s with
  | mk r s' =>
    rw [hx] at h
    cases h
    rfl

/-- A step after one that fails is not taken. -/
theorem bind_of_error {x : SessionStep α} {e : Error} (h : x.result s = .error e)
    (f : α → SessionStep β) : (x >>= f).result s = .error e ∧ (x >>= f).after s = x.after s := by
  unfold result at h
  rw [result, after, run_bind, after]
  cases hx : x.run.run s with
  | mk r s' =>
    rw [hx] at h
    cases h
    exact ⟨rfl, rfl⟩

@[simp] theorem result_pure (a : α) (s : Session) : (pure a : SessionStep α).result s = .ok a := rfl

@[simp] theorem after_pure (a : α) (s : Session) : (pure a : SessionStep α).after s = s := rfl

@[simp] theorem result_get (s : Session) : (get : SessionStep Session).result s = .ok s := rfl

@[simp] theorem after_get (s : Session) : (get : SessionStep Session).after s = s := rfl

@[simp] theorem result_modify (f : Session → Session) (s : Session) :
    (modify f : SessionStep Unit).result s = .ok () := rfl

@[simp] theorem after_modify (f : Session → Session) (s : Session) :
    (modify f : SessionStep Unit).after s = f s := rfl

end SessionStep

namespace Session

open SessionStep

variable {α : Type} (s : Session)

@[simp] theorem result_ofResult (r : Result α) : (ofResult r).result s = r := rfl

@[simp] theorem after_ofResult (r : Result α) : (ofResult r).after s = s := rfl

theorem after_ofResult_bind {β : Type} {r : Result α} {a : α} (h : r = .ok a)
    (f : α → SessionStep β) : (ofResult r >>= f).after s = (f a).after s :=
  after_bind ((result_ofResult s r).trans h) f

@[simp] theorem result_build (b : Build α) : (build b).result s = (b.run.run s.nextRef).run.1 := rfl

@[simp] theorem after_build (b : Build α) :
    (build b).after s = { s with nextRef := (b.run.run s.nextRef).run.2 } := rfl

@[simp] theorem result_report (text : String) : (report text).result s = .ok () := rfl

/-- A report leaves everything but the log as it was. -/
theorem after_report (text : String) : ∃ log, (report text).after s = { s with log } := by
  by_cases h : s.config.verbose = true
  · exact ⟨s.log ++ [text], if_pos h⟩
  · exact ⟨s.log, if_neg h⟩

@[simp] theorem result_changeStore (change : Store → Result Unit × Store) :
    (changeStore change).result s = (change s.store).1 := rfl

@[simp] theorem after_changeStore (change : Store → Result Unit × Store) :
    (changeStore change).after s = { s with store := (change s.store).2 } := rfl

/-! ### Queries -/

theorem result_compile (q : Query) (choice : LimitChoice) : (compile q choice).result s =
    ((q.compile s.capabilities s.config choice).run.run s.nextRef).run.1 := rfl

theorem result_run (q : CompiledQuery) : (run q).result s = q.plan.run s.store.provider := rfl

/-- **Running a query**: what compiling it gives is run on the store, and the number of columns is
checked. -/
theorem result_execute (q : Query) (choice : LimitChoice) : (execute q choice).result s = do
    let compiled ← (compile q choice).result s
    let batch ← compiled.plan.run s.store.provider
    if batch.numColumns ≠ compiled.schema.size then
      .error (.result (.columnCount compiled.schema.size batch.numColumns))
    else return ⟨compiled.schema, ← QueryResult.outputOf compiled.shape batch⟩ := by
  unfold execute
  rw [result_bind]
  refine congrArg _ (funext fun compiled => ?_)
  obtain ⟨log, hlog⟩ := after_report ((compile q choice).after s) compiled.sql
  rw [result_bind, result_report, Result.ok_bind, hlog, result_bind, result_run]
  refine congrArg _ (funext fun batch => ?_)
  split
  · rfl
  · rw [result_bind]
    rfl

end Session

end TableQuery
