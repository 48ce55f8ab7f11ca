import TableQuery.Proofs.Session.View

/-! # Columns that are replaced and added

A table is mutated by a projection. It goes through the columns and takes for each the expression
of its name, if there is one, out of those that are left; the rest is put behind. If the names of
the expressions differ, what stands in the place of a column does not depend on those taken before
(`Table.replacing_eq`): every expression is there, and every column that no expression is named
after (`Table.mem_replacing_iff`).

All of them are resolved over the columns as they were, so that an expression reads the old values
of columns that are replaced. A row of the result is told by the values under its names
(`Row.Mutated`); the main statement is `Table.Built.execute_mutate`. -/

namespace TableQuery

/-! ### The projected expressions -/

namespace Table

/-- What stands in the place of a column. -/
def replacement (exprs : List Expr) (name : String) : Expr :=
  (exprs.find? (·.outputName == name)).getD (.col name)

theorem outputName_replacement (exprs : List Expr) (name : String) :
    (replacement exprs name).outputName = name := by
  unfold replacement
  cases h : exprs.find? (·.outputName == name) with
  | none => rfl
  | some e => simpa using List.find?_some h

/-- The first of some expressions with a name is the only one. -/
theorem eraseP_outputName_eq_filter {name : String} : ∀ {exprs : List Expr},
    (exprs.map Expr.outputName).Nodup →
      exprs.eraseP (·.outputName == name) = exprs.filter (·.outputName != name)
  | [], _ => rfl
  | e :: exprs, h => by
    obtain ⟨he, hexprs⟩ := List.nodup_cons.mp h
    by_cases hname : e.outputName = name
    · have hrest : exprs.filter (·.outputName != name) = exprs := by
        refine List.filter_eq_self.mpr fun d hd => ?_
        rw [bne_iff_ne, ← hname]
        exact fun heq => he (heq ▸ List.mem_map_of_mem hd)
      simp [hname, hrest]
    · simp [hname, eraseP_outputName_eq_filter hexprs]

/-- Taking the expression of a name out changes nothing for other names. -/
theorem replacement_filter {exprs : List Expr} {name other : String} (h : other ≠ name) :
    replacement (exprs.filter (·.outputName != name)) other = replacement exprs other := by
  unfold replacement
  rw [List.find?_filter]
  congr 2
  funext e
  by_cases he : e.outputName = other
  · simp [he, h]
  · simp [he]

/-- **Columns are replaced one by one**, and the other expressions come behind. -/
theorem replacing_eq : ∀ {names : List String} {exprs : List Expr}, names.Nodup →
    (exprs.map Expr.outputName).Nodup → replacing names exprs =
      names.map (replacement exprs) ++ exprs.filter fun e => !names.contains e.outputName
  | [], exprs, _, _ => (List.filter_eq_self.mpr fun _ _ => rfl).symm
  | name :: names, exprs, hnames, hexprs => by
    obtain ⟨hname, hnames⟩ := List.nodup_cons.mp hnames
    have hleft : replacing names (exprs.filter (·.outputName != name)) =
        names.map (replacement exprs) ++ exprs.filter fun e =>
          !(name :: names).contains e.outputName := by
      rw [replacing_eq hnames (hexprs.sublist (List.filter_sublist.map _)), List.filter_filter]
      congr 1
      · exact List.map_congr_left fun other hother =>
          replacement_filter fun heq => hname (heq ▸ hother)
      · refine List.filter_congr fun e _ => ?_
        by_cases he : e.outputName = name <;> simp [he, hname]
    rw [List.map_cons, List.cons_append, ← hleft, replacing, replacement]
    cases hfind : exprs.find? (·.outputName == name) with
    | some e => rw [eraseP_outputName_eq_filter hexprs, Option.getD_some]
    | none =>
      have hall : exprs.filter (·.outputName != name) = exprs := by
        refine List.filter_eq_self.mpr fun e he => ?_
        simpa using List.find?_eq_none.mp hfind e he
      rw [hall, Option.getD_none]

section Replacing

variable {names : List String} {exprs : List Expr} (hexprs : (exprs.map Expr.outputName).Nodup)
include hexprs

/-- An expression stands in the place of the column of its name. -/
theorem replacement_of_mem {e : Expr} (he : e ∈ exprs) : replacement exprs e.outputName = e := by
  unfold replacement
  cases hfind : exprs.find? (·.outputName == e.outputName) with
  | none => exact absurd (List.find?_eq_none.mp hfind e he) (by simp)
  | some d =>
    have hname : d.outputName = e.outputName := by simpa using List.find?_some hfind
    exact List.inj_on_of_nodup_map hexprs (List.mem_of_find?_eq_some hfind) he hname

omit hexprs in
/-- A column stays where no expression is named after it. -/
theorem replacement_of_not_mem {name : String} (h : name ∉ exprs.map Expr.outputName) :
    replacement exprs name = .col name := by
  unfold replacement
  rw [List.find?_eq_none.mpr, Option.getD_none]
  intro e he heq
  exact h (List.mem_map.mpr ⟨e, he, by simpa using heq⟩)

/-- **What is projected**: the columns that no expression is named after, and the expressions. -/
theorem mem_replacing_iff (hnames : names.Nodup) {e : Expr} : e ∈ replacing names exprs ↔
    (∃ name ∈ names, name ∉ exprs.map Expr.outputName ∧ e = .col name) ∨ e ∈ exprs := by
  rw [replacing_eq hnames hexprs, List.mem_append, List.mem_map, List.mem_filter]
  constructor
  · rintro (⟨name, hname, rfl⟩ | ⟨he, -⟩)
    · by_cases hnew : name ∈ exprs.map Expr.outputName
      · obtain ⟨e, he, rfl⟩ := List.mem_map.mp hnew
        rw [replacement_of_mem hexprs he]
        exact .inr he
      · exact .inl ⟨name, hname, hnew, replacement_of_not_mem hnew⟩
    · exact .inr he
  · rintro (⟨name, hname, hnew, rfl⟩ | he)
    · exact .inl ⟨name, hname, replacement_of_not_mem hnew⟩
    · by_cases hname : e.outputName ∈ names
      · exact .inl ⟨_, hname, replacement_of_mem hexprs he⟩
      · exact .inr ⟨he, by simpa using hname⟩

theorem map_outputName_replacing (hnames : names.Nodup) :
    (replacing names exprs).map Expr.outputName =
      names ++ (exprs.filter fun e => !names.contains e.outputName).map Expr.outputName := by
  rw [replacing_eq hnames hexprs, List.map_append, List.map_map]
  congr 1
  exact (List.map_congr_left fun name _ => outputName_replacement exprs name).trans (List.map_id _)

end Replacing

end Table

/-! ### Rows by the names of projected expressions -/

namespace Expr

variable {s w : Schema} {es : List Expr} {xs : List RowExpr} {row out : Row}

/-- The columns of a projection have the names and the types of its expressions. -/
theorem forall₂_of_mapM_projectedField
    (hfields : es.mapM (Table.projectedField s) = .ok w.fields) :
    List.Forall₂ (fun e field => e.outputName = field.1 ∧ e.typeIn s = .ok field.2) es
      w.fields := by
  refine (Result.forall₂_of_mapM hfields).imp fun e field h => ?_
  unfold Table.projectedField at h
  split at h
  · cases h
  · obtain ⟨t, ht, rfl⟩ := Result.map_eq_ok_iff.mp h
    exact ⟨rfl, ht⟩

theorem names_of_mapM_projectedField
    (hfields : es.mapM (Table.projectedField s) = .ok w.fields) :
    w.names = es.map outputName :=
  (map_eq_map_of_forall₂ ((forall₂_of_mapM_projectedField hfields).imp fun _ _ h => h.1)).symm

theorem typeOf_outputName (hfields : es.mapM (Table.projectedField s) = .ok w.fields) {e : Expr}
    (he : e ∈ es) : w.typeOf e.outputName = e.typeIn s := by
  obtain ⟨i, hi⟩ := List.getElem?_of_mem he
  obtain ⟨⟨name, t⟩, hfield, rfl, ht⟩ :=
    exists_of_forall₂_getElem? (forall₂_of_mapM_projectedField hfields) hi
  rw [ht, Schema.typeOf_eq_ok_iff, Schema.type?_eq_some_iff]
  exact List.mem_of_getElem? hfield

/-- The value of a projected expression stands under its name. -/
theorem eval_of_evalAll (hfields : es.mapM (Table.projectedField s) = .ok w.fields)
    (hxs : resolveAll (Scope.single s) es = .ok xs) (hout : RowExpr.evalAll row xs = .ok out)
    {e : Expr} (he : e ∈ es) : ∃ x, e.resolve (Scope.single s) = .ok x ∧
      x.eval row = .ok (w.valueAt out e.outputName) := by
  rw [resolveAll_eq_mapM] at hxs
  rw [RowExpr.evalAll_eq_mapM] at hout
  obtain ⟨i, hi⟩ := List.getElem?_of_mem he
  obtain ⟨⟨name, t⟩, hfield, rfl, -⟩ :=
    exists_of_forall₂_getElem? (forall₂_of_mapM_projectedField hfields) hi
  obtain ⟨x, hx, hresolve⟩ := exists_of_forall₂_getElem? (Result.forall₂_of_mapM hxs) hi
  obtain ⟨v, hv, heval⟩ := exists_of_forall₂_getElem? (Result.forall₂_of_mapM hout) hx
  refine ⟨x, hresolve, ?_⟩
  rw [Schema.valueAt_of_getElem? hfield, List.getD_eq_getElem?_getD, hv]
  exact heval

/-- **The values of projected expressions**, told by their names. -/
theorem evalAll_eq_ok_iff_valueAt (hfields : es.mapM (Table.projectedField s) = .ok w.fields)
    (hxs : resolveAll (Scope.single s) es = .ok xs) :
    RowExpr.evalAll row xs = .ok out ↔ out.length = w.size ∧ ∀ e ∈ es, ∃ x,
      e.resolve (Scope.single s) = .ok x ∧ x.eval row = .ok (w.valueAt out e.outputName) := by
  have hmap := hxs
  rw [resolveAll_eq_mapM] at hmap
  have hlength : ∀ {out}, RowExpr.evalAll row xs = .ok out → out.length = w.size := by
    intro out hout
    rw [RowExpr.evalAll_eq_mapM] at hout
    exact (Result.forall₂_of_mapM hout).length_eq.symm.trans ((Result.forall₂_of_mapM
      hmap).length_eq.symm.trans (forall₂_of_mapM_projectedField hfields).length_eq)
  refine ⟨fun hout => ⟨hlength hout, fun e he => eval_of_evalAll hfields hxs hout he⟩, ?_⟩
  rintro ⟨hsize, hvalues⟩
  have hexists : ∀ x ∈ xs, ∃ v, x.eval row = .ok v := by
    intro x hx
    obtain ⟨e, he, hresolve⟩ := Result.exists_of_mem_mapM hmap x hx
    obtain ⟨y, hy, hv⟩ := hvalues e he
    exact ⟨_, Except.ok.inj (hresolve.symm.trans hy) ▸ hv⟩
  obtain ⟨found, hfound⟩ := Result.exists_mapM_eq_ok hexists
  rw [← RowExpr.evalAll_eq_mapM] at hfound
  -- A row is settled by the values under the names.
  have hsame : ∀ name ∈ w.names, w.valueAt found name = w.valueAt out name := by
    intro name hname
    rw [names_of_mapM_projectedField hfields] at hname
    obtain ⟨e, he, rfl⟩ := List.mem_map.mp hname
    obtain ⟨x, hx, hv⟩ := eval_of_evalAll hfields hxs hfound he
    obtain ⟨y, hy, hv'⟩ := hvalues e he
    obtain rfl : x = y := Except.ok.inj (hx.symm.trans hy)
    exact Except.ok.inj (hv.symm.trans hv')
  rw [hfound, ← Schema.map_valueAt_names (hlength hfound), List.map_congr_left hsame,
    Schema.map_valueAt_names hsize]

end Expr

/-! ### Mutated tables -/

/-- **A row with columns replaced and added**: it has a value for each column, those of columns that
no expression is named after are the old ones, and under the name of each expression stands its
value on the old row. -/
structure Row.Mutated (old new : Schema) (exprs : List Expr) (row out : Row) : Prop where
  length_eq : out.length = new.size
  kept : ∀ name ∈ old.names, name ∉ exprs.map Expr.outputName →
    new.valueAt out name = old.valueAt row name
  computed : ∀ e ∈ exprs, ∃ x, e.resolve (Scope.single old) = .ok x ∧
    x.eval row = .ok (new.valueAt out e.outputName)

namespace Table

variable {t u : Table} {exprs : List Expr} {ref next : TableRef} {schema : Schema}

theorem gives_select_iff : (t.select exprs).Gives ref u next ↔
    ∃ schema, projectSchema t.schema exprs = .ok schema ∧
      u = ⟨.node (.project exprs) ref schema [t.root], t.suffixes⟩ ∧ next = ⟨ref.index + 1⟩ := by
  rw [select, Build.gives_ofResult_bind_iff]
  simp only [Sound.gives_derive_iff]

/-- The values of what is projected, told by the columns and the expressions. -/
theorem evalAll_replacing_iff (hexprs : (exprs.map Expr.outputName).Nodup) {xs : List RowExpr}
    (hfields : (replacing t.schema.names exprs).mapM (projectedField t.schema) = .ok schema.fields)
    (hxs : Expr.resolveAll (Scope.single t.schema) (replacing t.schema.names exprs) = .ok xs)
    {row out : Row} :
    RowExpr.evalAll row xs = .ok out ↔ Row.Mutated t.schema schema exprs row out := by
  have hnames : t.schema.names.Nodup := t.schema.nodup
  have hcolumn : ∀ name ∈ t.schema.names, (∃ x,
      (Expr.col name).resolve (Scope.single t.schema) = .ok x ∧
        x.eval row = .ok (schema.valueAt out name)) ↔
      schema.valueAt out name = t.schema.valueAt row name := by
    intro name hname
    obtain ⟨type, htype⟩ := Schema.contains_iff_type?.mp (Schema.contains_iff_mem_names.mpr hname)
    obtain ⟨x, hx, -, hv⟩ := Expr.resolve_column_eval none (Schema.typeOf_eq_ok_iff.mpr htype)
    constructor
    · rintro ⟨y, hy, hvalue⟩
      obtain rfl : x = y := Except.ok.inj (hx.symm.trans hy)
      exact Except.ok.inj (hvalue.symm.trans (hv row))
    · exact fun h => ⟨x, hx, h ▸ hv row⟩
  rw [Expr.evalAll_eq_ok_iff_valueAt hfields hxs]
  constructor
  · rintro ⟨hsize, hvalues⟩
    refine ⟨hsize, fun name hname hnew => (hcolumn name hname).mp ?_, fun e he => ?_⟩
    · exact hvalues _ ((mem_replacing_iff hexprs hnames).mpr (.inl ⟨name, hname, hnew, rfl⟩))
    · exact hvalues e ((mem_replacing_iff hexprs hnames).mpr (.inr he))
  · rintro ⟨hsize, hkept, hcomputed⟩
    refine ⟨hsize, fun e he => ?_⟩
    rcases (mem_replacing_iff hexprs hnames).mp he with ⟨name, hname, hnew, rfl⟩ | he
    · exact (hcolumn name hname).mpr (hkept name hname hnew)
    · exact hcomputed e he

/-- The rows of a table with columns replaced and added. -/
theorem Built.batchOf_mutate {free : TableRef} (h : Built free t) (hplain : ∀ e ∈ exprs, e.Plain)
    (hexprs : (exprs.map Expr.outputName).Nodup)
    (hfields : (replacing t.schema.names exprs).mapM (projectedField t.schema) = .ok schema.fields)
    {s : Session} {out : Batch} :
    s.batchOf (.node (.project (replacing t.schema.names exprs)) ref schema [t.root]) = .ok out ↔
      ∃ b rows, s.batchOf t.root = .ok b ∧
        List.Forall₂ (Row.Mutated t.schema schema exprs) b.rows rows ∧
        out = ⟨schema.types, rows⟩ := by
  have hall : ∀ e ∈ replacing t.schema.names exprs, e.Plain := by
    intro e he
    rcases (mem_replacing_iff hexprs t.schema.nodup).mp he with ⟨name, -, -, rfl⟩ | he
    · exact ⟨rfl, rfl⟩
    · exact hplain e he
  have htypes := Expr.forall₂_of_mapM_projectedField hfields
  have htyped : ∀ e ∈ replacing t.schema.names exprs, ∃ type, e.typeIn t.schema = .ok type := by
    intro e he
    obtain ⟨i, hi⟩ := List.getElem?_of_mem he
    obtain ⟨field, -, -, htype⟩ := exists_of_forall₂_getElem? htypes hi
    exact ⟨_, htype⟩
  obtain ⟨xs, hmap, -⟩ := (Expr.mapM_resolve_decides htyped).ok hall
  have hlength : schema.types.length = xs.length :=
    (List.length_map _).trans (htypes.length_eq.symm.trans (Result.forall₂_of_mapM hmap).length_eq)
  rw [← Expr.resolveAll_eq_mapM] at hmap
  rw [Session.batchOf_project h.sound.checked
    (Expr.hasWindowAny_eq_false_iff.mpr fun e he => (hall e he).2) hmap, Result.bind_eq_ok_iff]
  simp only [Batch.project_eq_ok_iff hlength]
  have hrow : ∀ row out, RowExpr.evalAll row xs = .ok out ↔
      Row.Mutated t.schema schema exprs row out :=
    fun row out => evalAll_replacing_iff hexprs hfields hmap
  constructor
  · rintro ⟨b, hb, rows, hrows, rfl⟩
    have hmutated := (Result.forall₂_of_mapM hrows).imp fun row out => (hrow row out).mp
    exact ⟨b, rows, hb, hmutated, rfl⟩
  · rintro ⟨b, rows, hb, hmutated, rfl⟩
    have hrows := Result.mapM_of_forall₂ (hmutated.imp fun row out => (hrow row out).mpr)
    exact ⟨b, hb, rows, hrows, rfl⟩

/-- **Mutating replaces columns in place and adds new ones behind.** For a table that calls make and
expressions of different names without aggregates and windows: the columns of the result are those
of the table in their order and then, in theirs, the expressions that are named after none of them.
A column has the type of the expression of its name, or its old type. Executing the result succeeds
exactly if the rows of the table can be computed and all expressions have values on them. It gives a
row for each row of the table, in its order: on every row each column has the value that the
expression of its name has on the old row, or its old value. -/
theorem Built.execute_mutate {free : TableRef} (h : Built free t) (hplain : ∀ e ∈ exprs, e.Plain)
    (hexprs : (exprs.map Expr.outputName).Nodup) (hu : (t.mutate exprs).Gives ref u next) :
    u.schema.names = t.schema.names ++
      (exprs.filter fun e => !t.schema.names.contains e.outputName).map Expr.outputName ∧
    (∀ name ∈ t.schema.names, name ∉ exprs.map Expr.outputName →
      u.schema.typeOf name = t.schema.typeOf name) ∧
    (∀ e ∈ exprs, u.schema.typeOf e.outputName = e.typeIn t.schema) ∧
    ∀ s : Session,
      (∀ r, (Session.execute ⟨t, .table⟩ .unbounded).result s = .ok r →
        ∃ b, s.batchOf t.root = .ok b ∧ r = ⟨t.schema, .batch b⟩) ∧
      ∀ r, (Session.execute ⟨u, .table⟩ .unbounded).result s = .ok r ↔
        ∃ b rows, s.batchOf t.root = .ok b ∧
          List.Forall₂ (Row.Mutated t.schema u.schema exprs) b.rows rows ∧
          r = ⟨u.schema, .batch ⟨u.schema.types, rows⟩⟩ := by
  have hnames : t.schema.names.Nodup := t.schema.nodup
  obtain ⟨schema, hschema, rfl, -⟩ := gives_select_iff.mp hu
  have hfields := Sound.fields_of_projectSchema hschema
  have hmem := fun e => mem_replacing_iff (e := e) hexprs hnames
  refine ⟨?_, fun name hname hnew => ?_, fun e he => ?_, fun s => ⟨fun r hr => ?_, fun r => ?_⟩⟩
  · exact (Expr.names_of_mapM_projectedField hfields).trans (map_outputName_replacing hexprs hnames)
  · exact Expr.typeOf_outputName hfields ((hmem _).mpr (.inl ⟨name, hname, hnew, rfl⟩))
  · exact Expr.typeOf_outputName hfields ((hmem e).mpr (.inr he))
  · rw [Session.result_execute_unbounded] at hr
    obtain ⟨b, hb, -, hschema, houtput⟩ := Session.answer_eq_ok_iff.mp hr
    obtain ⟨rs, o⟩ := r
    cases hschema
    cases houtput
    exact ⟨b, hb, rfl⟩
  · rw [Session.result_execute_unbounded, Session.answer_eq_ok_iff]
    simp only [h.batchOf_mutate hplain hexprs hfields]
    constructor
    · rintro ⟨_, ⟨b, rows, hb, hrows, rfl⟩, -, hschema, houtput⟩
      obtain ⟨rs, o⟩ := r
      cases hschema
      cases houtput
      exact ⟨b, rows, hb, hrows, rfl⟩
    · rintro ⟨b, rows, hb, hrows, rfl⟩
      exact ⟨_, ⟨b, rows, hb, hrows, rfl⟩, List.length_map _, rfl, rfl⟩

/-- Two columns are exchanged by expressions that read each other's, and a sum of them is put
behind. -/
theorem Built.execute_mutate_exchanged :
    let n : Int → Scalar := fun v => .int .int64 (Bounded.clamp _ _ (by decide) v)
    let stored : Schema := ⟨[("a", .int64), ("b", .int64), ("c", .utf8)], by decide⟩
    let rows : { b : Batch // b.Rectangular } :=
      ⟨⟨stored.types, [[n 1, n 2, .utf8 "x"], [n 3, .null, .utf8 "y"]]⟩,
        List.forall_mem_cons.mpr ⟨rfl, List.forall_mem_singleton.mpr rfl⟩⟩
    let s := (Session.start ⟨true, .ansi⟩).runCalls [.create "t" stored (some rows) .error]
    let t : Table := ⟨.node (.scan "t") ⟨0⟩ stored [], .standard⟩
    let sum : Expr := .named "sum" (.arith .add (.col "a") (.col "b"))
    let exprs : List Expr := [sum, .named "b" (.col "a"), .named "a" (.col "b")]
    let schema : Schema := ⟨[("a", .int64), ("b", .int64), ("c", .utf8), ("sum", .int64)],
      by decide⟩
    let u : Table := ⟨.node (.project [.named "a" (.col "b"), .named "b" (.col "a"), .col "c", sum])
      ⟨1⟩ schema [t.root], .standard⟩
    let out : List Row := [[n 2, n 1, .utf8 "x", n 3], [.null, n 3, .utf8 "y", .null]]
    Built ⟨1⟩ t ∧ (∀ e ∈ exprs, e.Plain) ∧ (exprs.map Expr.outputName).Nodup ∧
      (t.mutate exprs).Gives ⟨1⟩ u ⟨2⟩ ∧ u.schema.names = ["a", "b", "c"] ++ ["sum"] ∧
      (Session.execute ⟨u, .table⟩ .unbounded).result s =
        .ok ⟨schema, .batch ⟨schema.types, out⟩⟩ ∧
      List.Forall₂ (Row.Mutated stored schema exprs) rows.1.rows out := by
  intro n stored rows s t sum exprs schema u out
  have hscan : (Table.scan "t" stored).Gives ⟨0⟩ t ⟨1⟩ := rfl
  have hbuilt : Built ⟨1⟩ t := .scan hscan
  have hplain : ∀ e ∈ exprs, e.Plain := by
    refine List.forall_mem_cons.mpr ⟨⟨rfl, rfl⟩, List.forall_mem_cons.mpr ⟨⟨rfl, rfl⟩, ?_⟩⟩
    exact List.forall_mem_singleton.mpr ⟨rfl, rfl⟩
  have hexprs : (exprs.map Expr.outputName).Nodup := by decide
  have hu : (t.mutate exprs).Gives ⟨1⟩ u ⟨2⟩ := rfl
  obtain ⟨hnames, -, -, hexecute⟩ := hbuilt.execute_mutate hplain hexprs hu
  have hresult : (Session.execute ⟨u, .table⟩ .unbounded).result s =
      .ok ⟨schema, .batch ⟨schema.types, out⟩⟩ := by cbv
  obtain ⟨b, found, hb, hmutated, hr⟩ := ((hexecute s).2 _).mp hresult
  have hrows : s.batchOf t.root = .ok rows.1 := rfl
  obtain rfl : rows.1 = b := Except.ok.inj (hrows.symm.trans hb)
  cases hr
  exact ⟨hbuilt, hplain, hexprs, hu, hnames, hresult, hmutated⟩

end Table

end TableQuery
