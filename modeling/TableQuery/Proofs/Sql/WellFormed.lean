import TableQuery.Proofs.Sql.Pieces
import TableQuery.Proofs.Sql.Rendering

/-! # Rendered SQL is well formed

The text of a plan is put together from the texts of its inputs, and every part of it is a neutral
piece: it is read in code and closes what it opens. The induction on the plan
(`Dialect.neutral_render`) needs of every node that what it writes can be written
(`Operation.Safe`): names and strings can be quoted, no negation stands over the literal of a
negative number, and the text of a query is well formed by itself. The main statement is
`Dialect.wellFormed_render`; `Dialect.not_wellFormed_render` is a negation that breaks its text. -/

namespace TableQuery

open Sql Result

/-! ### Plans that are safe to write -/

/-- The item of a SELECT can be written: the expression, and its name in quotes. -/
def Expr.ItemSafe (d : Dialect) (e : Expr) : Prop :=
  e.isSafe d = true ∧ d.canQuote e.outputName = true

/-- The columns that an output of a join reads can be named. -/
def JoinSource.Safe (d : Dialect) : JoinSource → Prop
  | .left n | .right n => d.canQuote n = true
  | .coalesce l r => d.canQuote l = true ∧ d.canQuote r = true

/-- What an operation writes can be written: names and strings can be quoted, no negation stands
over the literal of a negative number, and the text of a query is well formed by itself. -/
def Operation.Safe (d : Dialect) (schema : Schema) : Operation → Prop
  | .scan table => d.canQuote table = true
  | .sqlQuery query => WellFormed query
  | .values batch => (∀ row ∈ batch.rows, ∀ v ∈ row, v.isSafe = true) ∧
      ∀ field ∈ schema.fields, d.canQuote field.1 = true ∧ field.2.isSafe d = true
  | .project exprs => ∀ e ∈ exprs, e.ItemSafe d
  | .filter predicate => predicate.isSafe d = true
  | .join j => (∀ e ∈ j.residual, e.isSafe d = true) ∧
      (∀ c ∈ j.conditions, d.canQuote c.left = true ∧ d.canQuote c.right = true) ∧
      ∀ o ∈ j.outputs, d.canQuote o.name = true ∧ o.source.Safe d
  | .aggregate keys metrics => ∀ e ∈ keys ++ metrics, e.ItemSafe d
  | .order keys => Expr.keysSafe d keys = true
  | .limit _ _ => True

namespace Plan

/-- **A plan is safe to write** if every node is. -/
def Safe (d : Dialect) (p : Plan) : Prop := ∀ q ∈ p.nodes, q.op.Safe d q.schema

variable {d : Dialect}

theorem Safe.op {op : Operation} {ref : TableRef} {schema : Schema} {children : List Plan}
    (h : (node op ref schema children).Safe d) : op.Safe d schema := h _ (mem_nodes_self _)

theorem Safe.child {op : Operation} {ref : TableRef} {schema : Schema} {children : List Plan}
    {c : Plan} (h : (node op ref schema children).Safe d) (hc : c ∈ children) : c.Safe d :=
  fun q hq => h q (mem_nodes_of_child hc hq)

mutual

/-- The ordering of a plan is that of a node in it. -/
theorem Safe.keysSafe : ∀ {p : Plan} {keys : List (SortKey Expr)}, p.Safe d →
    p.ordering? = some keys → Expr.keysSafe d keys = true
  | .node op ref schema children, keys, hp, h => by
    have hchildren : ∀ ks, orderingOfFirst? children = some ks → Expr.keysSafe d ks = true :=
      fun ks => keysSafe_orderingOfFirst? fun c hc => hp.child hc
    cases op with
    | order ks =>
      cases h
      exact hp.op
    | filter predicate | limit n offset =>
      rw [ordering?] at h
      exact hchildren keys h
    | project exprs =>
      rw [ordering?] at h
      obtain ⟨ks, hks, h⟩ := Option.bind_eq_some_iff.mp h
      split at h
      · cases h
        exact hchildren keys hks
      · cases h
    | _ => cases h

theorem keysSafe_orderingOfFirst? : ∀ {ps : List Plan} {keys : List (SortKey Expr)},
    (∀ p ∈ ps, p.Safe d) → orderingOfFirst? ps = some keys → Expr.keysSafe d keys = true
  | p :: _, _, hps, h => by
    rw [orderingOfFirst?] at h
    exact (hps p List.mem_cons_self).keysSafe h

end

end Plan

namespace Sql

namespace Form

theorem neutral_ofRelation (form : Form) {relation : String} (h : Neutral relation) :
    Neutral (form.ofRelation relation) := by
  cases form with
  | statement => exact Neutral.append (by decide) h
  | source => exact h

theorem neutral_ofStatement (form : Form) (ref : TableRef) {sql : String} (h : Neutral sql) :
    Neutral (form.ofStatement ref sql) := by
  cases form with
  | statement => exact h
  | source =>
    have hparens : Neutral ("(" ++ sql ++ ") AS ") := h.enclosed 1 (by decide) (by decide)
    exact hparens.append (neutral_tableAlias ref)

end Form

namespace Dialect

variable {d : Dialect}

/-! ### Clauses -/

/-- Pieces behind a word, with commas between them. -/
theorem neutral_clause {word : String} (hword : Neutral word) {pieces : List String}
    (h : ∀ s ∈ pieces, Neutral s) : Neutral (word ++ ", ".intercalate pieces) :=
  hword.append (neutral_intercalate (by decide) h)

theorem neutral_selectItem {e : Expr} {x : String} (he : e.ItemSafe d)
    (h : d.selectItem e = .ok x) : Neutral x := by
  rw [selectItem] at h
  obtain ⟨y, hy, h⟩ := bind_eq_ok_iff.mp h
  cases h
  have hexpr := neutral_expr (Expr.isSafe_unaliased he.1) hy
  split
  · exact hexpr
  · exact (hexpr.append (by decide)).append (neutral_name he.2)

theorem neutral_selectItems {es : List Expr} {x : String} (hes : ∀ e ∈ es, e.ItemSafe d)
    (h : d.selectItems es = .ok x) : Neutral x := by
  rw [selectItems] at h
  obtain ⟨items, hitems, h⟩ := bind_eq_ok_iff.mp h
  cases h
  refine neutral_intercalate (by decide) fun s hs => ?_
  obtain ⟨e, he, hs⟩ := exists_of_mem_mapM hitems s hs
  exact neutral_selectItem (hes e he) hs

theorem neutral_orderBy {scope : NameScope} {keys : List (SortKey Expr)} {x : String}
    (hkeys : Expr.keysSafe d keys = true) (h : d.orderBy scope keys = .ok x) : Neutral x := by
  rw [orderBy] at h
  obtain ⟨ks, hks, h⟩ := bind_eq_ok_iff.mp h
  cases h
  exact neutral_clause (by decide) (neutral_sortKeys hkeys hks)

theorem neutral_repeatedOrderBy {input : TableRef} {keys : Option (List (SortKey Expr))}
    {x : String} (hkeys : ∀ ks, keys = some ks → Expr.keysSafe d ks = true)
    (h : d.repeatedOrderBy input keys = .ok x) : Neutral x := by
  unfold repeatedOrderBy at h
  split at h
  · exact neutral_orderBy (hkeys _ rfl) h
  · cases h
    decide

theorem neutral_groupBy {keys : List Expr} {x : String} (hkeys : ∀ e ∈ keys, e.isSafe d = true)
    (h : d.groupBy keys = .ok x) : Neutral x := by
  unfold groupBy at h
  split at h
  · cases h
    decide
  · obtain ⟨ks, hks, h⟩ := bind_eq_ok_iff.mp h
    cases h
    refine neutral_clause (by decide) fun s hs => ?_
    obtain ⟨k, hk, hs⟩ := exists_of_mem_mapM hks s hs
    exact neutral_expr (Expr.isSafe_unaliased (hkeys k hk)) hs

theorem neutral_limitClause (limit : Option Nat) (offset : Nat) :
    Neutral (limitClause limit offset) := by
  refine PlainText.neutral (PlainText.append ?_ ?_)
  · cases limit with
    | none => decide
    | some n => exact PlainText.append (by decide) (plainText_nat n)
  · split
    · decide
    · exact PlainText.append (by decide) (plainText_nat offset)

/-! ### Rows held in a plan -/

theorem neutral_valuesRow {row : Row} (h : ∀ v ∈ row, v.isSafe = true) :
    Neutral (valuesRow row) := by
  refine Neutral.enclosed (neutral_intercalate (by decide) fun s hs => ?_) 1 (by decide) (by decide)
  obtain ⟨v, hv, rfl⟩ := List.mem_map.mp hs
  exact neutral_literal (h v hv)

theorem neutral_emptyColumn {field : String × DataType} {x : String}
    (hn : d.canQuote field.1 = true) (ht : field.2.isSafe d = true)
    (h : d.emptyColumn field = .ok x) : Neutral x := by
  rw [emptyColumn] at h
  obtain ⟨t, hname, h⟩ := bind_eq_ok_iff.mp h
  cases h
  have hcast : Neutral ("CAST(NULL AS " ++ t ++ ") AS ") :=
    (neutral_typeName ht hname).enclosed 1 (by decide) (by decide)
  exact hcast.append (neutral_name hn)

theorem neutral_values {batch : Batch} {schema : Schema} {ref : TableRef} {x : String}
    (hsafe : (Operation.values batch).Safe d schema) (h : d.values batch schema ref = .ok x) :
    Neutral x := by
  obtain ⟨hrows, hfields⟩ := hsafe
  unfold values at h
  split at h
  · obtain ⟨columns, hcolumns, h⟩ := bind_eq_ok_iff.mp h
    cases h
    have hlist : ∀ s ∈ columns, Neutral s := by
      intro s hs
      obtain ⟨field, hfield, hs⟩ := exists_of_mem_mapM hcolumns s hs
      exact neutral_emptyColumn (hfields field hfield).1 (hfields field hfield).2 hs
    exact ((neutral_intercalate (by decide) hlist).enclosed 1 (by decide) (by decide)).append
      (neutral_tableAlias ref)
  · cases h
    have hlist : ∀ s ∈ batch.rows.map valuesRow, Neutral s := by
      intro s hs
      obtain ⟨row, hrow, rfl⟩ := List.mem_map.mp hs
      exact neutral_valuesRow (hrows row hrow)
    have hnames : ∀ s ∈ schema.names.map d.name, Neutral s := by
      intro s hs
      obtain ⟨n, hn, rfl⟩ := List.mem_map.mp hs
      obtain ⟨field, hfield, rfl⟩ := List.mem_map.mp hn
      exact neutral_name (hfields field hfield).1
    have hvalues := ((neutral_intercalate (by decide : Neutral ", ") hlist).enclosed 1
      (by decide : Reads 0 "(VALUES " 1) (by decide : Reads 1 ") AS " 0)).append
        (neutral_tableAlias ref)
    exact ((Reads.append hvalues (by decide : Reads 0 " (" 1)).then
      (neutral_intercalate (by decide) hnames)).append (by decide)

/-! ### Joins -/

theorem neutral_joinPredicate {j : Join} {schema : Schema} {left right : Plan} {x : String}
    (hsafe : (Operation.join j).Safe d schema) (h : d.joinPredicate j left right = .ok x) :
    Neutral x := by
  obtain ⟨hresidual, hconditions, -⟩ := hsafe
  rw [joinPredicate] at h
  obtain ⟨residual, hmapM, h⟩ := bind_eq_ok_iff.mp h
  cases h
  split
  · decide
  · refine neutral_intercalate (by decide) fun s hs => ?_
    rcases List.mem_append.mp hs with hs | hs
    · obtain ⟨c, hc, rfl⟩ := List.mem_map.mp hs
      exact ((neutral_qualifiedName _ (hconditions c hc).1).append (by decide)).append
        (neutral_qualifiedName _ (hconditions c hc).2)
    · obtain ⟨e, he, hs⟩ := exists_of_mem_mapM hmapM s hs
      exact neutral_expr (hresidual e (Option.mem_toList.mp he)) hs

theorem neutral_joinOutput {left right : TableRef} {o : JoinOutput}
    (hn : d.canQuote o.name = true) (hsource : o.source.Safe d) :
    Neutral (d.joinOutput left right o) := by
  obtain ⟨n, source⟩ := o
  refine Neutral.append (Neutral.append ?_ (by decide)) (neutral_name hn)
  cases source with
  | left l => exact neutral_qualifiedName left hsource
  | right r => exact neutral_qualifiedName right hsource
  | coalesce l r =>
    exact neutral_pair (by decide) (neutral_qualifiedName left hsource.1)
      (neutral_qualifiedName right hsource.2)

theorem neutral_joinStatement (j : Join) {outputs left right on : String}
    (houtputs : Neutral outputs) (hleft : Neutral left) (hright : Neutral right)
    (hon : Neutral on) : Neutral (joinStatement j outputs left right on) := by
  have hselect : Neutral ("SELECT " ++ outputs ++ " FROM " ++ left) :=
    (((by decide : Neutral "SELECT ").append houtputs).append (by decide)).append hleft
  have hjoined {how : String} (hhow : Neutral how) :
      Neutral ("SELECT " ++ outputs ++ " FROM " ++ left ++ " " ++ how ++ " " ++ right ++ " ON " ++
        on) :=
    (((((hselect.append (by decide)).append hhow).append (by decide)).append hright).append
      (by decide)).append hon
  have hopen : Reads 0 "EXISTS (SELECT 1 FROM " 1 := by decide
  have hmatching : Neutral ("EXISTS (SELECT 1 FROM " ++ right ++ " WHERE " ++ on ++ ")") :=
    (((hopen.then hright).then (by decide)).then hon).append (by decide)
  unfold joinStatement
  split
  · exact (hselect.append (by decide)).append hmatching
  · exact (hselect.append (by decide)).append hmatching
  · split
    · exact (hselect.append (by decide)).append hright
    · exact hjoined (by decide)
  all_goals exact hjoined (by decide)

/-! ### Nodes -/

/-- A SELECT over one input, with what comes behind it. -/
theorem neutral_select {items source rest : String} (hitems : Neutral items)
    (hsource : Neutral source) (hrest : Neutral rest) :
    Neutral ("SELECT " ++ items ++ " FROM " ++ source ++ rest) :=
  ((((by decide : Neutral "SELECT ").append hitems).append (by decide)).append hsource).append hrest

/-- A SELECT of all columns over one input. -/
theorem neutral_selectAll {source : String} (hsource : Neutral source) :
    Neutral ("SELECT * FROM " ++ source) := (by decide : Neutral "SELECT * FROM ").append hsource

section Ordered

variable {form : Form} {ref input : TableRef} {keys : Option (List (SortKey Expr))}
  {source : Result String} {sql : String}

/-- A projection over an input whose ordering it repeats. -/
theorem neutral_project {exprs : List Expr} (hexprs : ∀ e ∈ exprs, e.ItemSafe d)
    (hsource : ∀ s, source = .ok s → Neutral s)
    (hkeys : ∀ ks, keys = some ks → Expr.keysSafe d ks = true)
    (h : (do
      let items ← d.selectItems exprs
      let source ← source
      let order ← d.repeatedOrderBy input keys
      return form.ofStatement ref ("SELECT " ++ items ++ " FROM " ++ source ++ order)) = .ok sql) :
    Neutral sql := by
  obtain ⟨items, hitems, h⟩ := bind_eq_ok_iff.mp h
  obtain ⟨s, hs, h⟩ := bind_eq_ok_iff.mp h
  obtain ⟨order, horder, h⟩ := bind_eq_ok_iff.mp h
  cases h
  exact form.neutral_ofStatement ref (neutral_select (neutral_selectItems hexprs hitems)
    (hsource s hs) (neutral_repeatedOrderBy hkeys horder))

/-- A filter over an input whose ordering it repeats. -/
theorem neutral_filter {predicate : Expr} (hpredicate : predicate.isSafe d = true)
    (hsource : ∀ s, source = .ok s → Neutral s)
    (hkeys : ∀ ks, keys = some ks → Expr.keysSafe d ks = true)
    (h : (do
      let source ← source
      let condition ← d.expr .single predicate
      let order ← d.repeatedOrderBy input keys
      return form.ofStatement ref ("SELECT * FROM " ++ source ++ " WHERE " ++ condition ++ order)) =
        .ok sql) : Neutral sql := by
  obtain ⟨s, hs, h⟩ := bind_eq_ok_iff.mp h
  obtain ⟨condition, hcondition, h⟩ := bind_eq_ok_iff.mp h
  obtain ⟨order, horder, h⟩ := bind_eq_ok_iff.mp h
  cases h
  have hselect := neutral_selectAll (hsource s hs)
  exact form.neutral_ofStatement ref (((hselect.append (by decide)).append
    (neutral_expr hpredicate hcondition)).append (neutral_repeatedOrderBy hkeys horder))

end Ordered

/-- **The text of a plan is a neutral piece**, as a statement and as a derived table. -/
theorem neutral_render (form : Form) (p : Plan) {sql : String} (hp : p.Safe d)
    (h : d.render form p = .ok sql) : Neutral sql := by
  fun_induction render d form p generalizing sql with
  | case1 form table ref =>
    cases h
    exact form.neutral_ofRelation (((neutral_name hp.op).append (by decide)).append
      (neutral_tableAlias ref))
  | case2 form query ref =>
    cases h
    have hquery : Neutral ("(" ++ query ++ ")" ++ " AS " ++ tableAlias ref) :=
      (hp.op.neutral_parens.append (by decide)).append (neutral_tableAlias ref)
    exact form.neutral_ofRelation (by simpa [String.append_assoc] using hquery)
  | case3 form batch ref schema =>
    obtain ⟨relation, hrelation, rfl⟩ := map_eq_ok_iff.mp h
    exact form.neutral_ofRelation (neutral_values hp.op hrelation)
  -- A sort below a projection or filter is no SELECT of its own, but its keys are written.
  | case4 form exprs ref _ keys _ _ input ih =>
    have hsorted := hp.child List.mem_cons_self
    have hinput := hsorted.child List.mem_cons_self
    exact neutral_project hp.op (fun _ => ih hinput) (fun _ => hsorted.keysSafe) h
  | case5 form exprs ref _ input _ ih =>
    have hinput := hp.child List.mem_cons_self
    exact neutral_project hp.op (fun _ => ih hinput) (fun _ => hinput.keysSafe) h
  | case6 form predicate ref _ keys _ _ input ih =>
    have hsorted := hp.child List.mem_cons_self
    have hinput := hsorted.child List.mem_cons_self
    exact neutral_filter hp.op (fun _ => ih hinput) (fun _ => hsorted.keysSafe) h
  | case7 form predicate ref _ input _ ih =>
    have hinput := hp.child List.mem_cons_self
    exact neutral_filter hp.op (fun _ => ih hinput) (fun _ => hinput.keysSafe) h
  | case8 form keys metrics ref _ input ih =>
    obtain ⟨items, hitems, h⟩ := bind_eq_ok_iff.mp h
    obtain ⟨source, hsource, h⟩ := bind_eq_ok_iff.mp h
    obtain ⟨groups, hgroups, h⟩ := bind_eq_ok_iff.mp h
    cases h
    have hkeys : ∀ e ∈ keys, e.isSafe d = true :=
      fun e he => (hp.op e (List.mem_append_left _ he)).1
    exact form.neutral_ofStatement ref (neutral_select (neutral_selectItems hp.op hitems)
      (ih (hp.child List.mem_cons_self) hsource) (neutral_groupBy hkeys hgroups))
  | case9 form keys ref _ input ih =>
    obtain ⟨source, hsource, h⟩ := bind_eq_ok_iff.mp h
    obtain ⟨order, horder, h⟩ := bind_eq_ok_iff.mp h
    cases h
    have hselect := neutral_selectAll (ih (hp.child List.mem_cons_self) hsource)
    exact form.neutral_ofStatement ref (hselect.append (neutral_orderBy hp.op horder))
  | case10 form n offset ref _ m skipped inner schema children ih =>
    obtain ⟨source, hsource, h⟩ := bind_eq_ok_iff.mp h
    obtain ⟨order, horder, h⟩ := bind_eq_ok_iff.mp h
    cases h
    have hinput := hp.child List.mem_cons_self
    have hselect := neutral_selectAll (ih hinput hsource)
    exact form.neutral_ofStatement ref ((hselect.append (neutral_repeatedOrderBy
      (fun _ => hinput.keysSafe) horder)).append (neutral_limitClause n offset))
  | case11 form n offset ref _ input _ ih =>
    obtain ⟨statement, hstatement, h⟩ := bind_eq_ok_iff.mp h
    cases h
    exact form.neutral_ofStatement ref ((ih (hp.child List.mem_cons_self) hstatement).append
      (neutral_limitClause n offset))
  | case12 form j ref _ left right ihl ihr =>
    obtain ⟨on, hon, h⟩ := bind_eq_ok_iff.mp h
    obtain ⟨leftSource, hleft, h⟩ := bind_eq_ok_iff.mp h
    obtain ⟨rightSource, hright, h⟩ := bind_eq_ok_iff.mp h
    cases h
    have houtputs : ∀ s ∈ j.outputs.map (d.joinOutput left.ref right.ref), Neutral s := by
      intro s hs
      obtain ⟨o, ho, rfl⟩ := List.mem_map.mp hs
      exact neutral_joinOutput (hp.op.2.2 o ho).1 (hp.op.2.2 o ho).2
    exact form.neutral_ofStatement ref (neutral_joinStatement j
      (neutral_intercalate (by decide) houtputs) (ihl (hp.child List.mem_cons_self) hleft)
      (ihr (hp.child (List.mem_cons_of_mem _ List.mem_cons_self)) hright)
      (neutral_joinPredicate hp.op hon))
  | case13 => cases h
  | case14 => cases h

/-- **Rendered SQL is well formed** if the plan is safe to write: its parentheses balance and never
close too early, no terminator stands in it, and it does not end inside quotes or a comment. -/
theorem wellFormed_render (form : Form) (p : Plan) {sql : String} (hp : p.Safe d)
    (h : d.render form p = .ok sql) : WellFormed sql := (neutral_render form p hp h).wellFormed

/-- A query with a comment in it, a negation beside a negative number, and a name with quotes. -/
theorem wellFormed_render_negation :
    let n : Schema := ⟨[("n", .int64)], by decide⟩
    let five : Scalar := .int .int64 (Bounded.clamp _ _ (by decide) (-5))
    let below : Expr := .compare .lt (.unary .negate (.col "n")) (.literal five)
    let query := "SELECT * FROM t -- all (\n"
    let queried : Plan := .node (.sqlQuery query) ⟨0⟩ n []
    let kept : Plan := .node (.filter below) ⟨1⟩ n [queried]
    let schema : Schema := ⟨[("\x60n;", .int64)], by decide⟩
    let t : Table := ⟨.node (.project [.aliased "\x60n;" (.col "n")]) ⟨2⟩ schema [kept], .standard⟩
    let d : Dialect := ⟨.backtick, true⟩
    let sql := "SELECT \x60n\x60 AS \x60\x60\x60n;\x60 FROM (SELECT * FROM (" ++ query ++
      ") AS t0 WHERE ((-\x60n\x60) < -5)) AS t1"
    Table.Built ⟨3⟩ t ∧ t.root.Safe d ∧ d.render .statement t.root = .ok sql ∧ WellFormed sql := by
  intro n five below query queried kept schema t d sql
  have hqueried : (Table.sqlQuery query n).Gives ⟨0⟩ ⟨queried, .standard⟩ ⟨1⟩ := rfl
  have hkept : (Table.filter ⟨queried, .standard⟩ below).Gives ⟨1⟩ ⟨kept, .standard⟩ ⟨2⟩ := rfl
  have ht : (Table.select ⟨kept, .standard⟩ [.aliased "\x60n;" (.col "n")]).Gives ⟨2⟩ t ⟨3⟩ := rfl
  have hsafe : t.root.Safe d := by
    refine List.forall_mem_cons.mpr ⟨?_, List.forall_mem_cons.mpr ⟨?_,
      List.forall_mem_singleton.mpr ?_⟩⟩
    · exact List.forall_mem_singleton.mpr ⟨rfl, rfl⟩
    · exact (by decide : below.isSafe d = true)
    · exact (by decide : WellFormed query)
  have hsql : d.render .statement t.root = .ok sql :=
    toOption_eq_some_iff.mp (by decide +kernel)
  exact ⟨.select (.filter (.sqlQuery hqueried) hkept) ht, hsafe, hsql,
    wellFormed_render .statement t.root hsafe hsql⟩

/-- **Rendered SQL is not always well formed**: the negation of a negative number is written with
two minus signs, which begin a comment. -/
theorem not_wellFormed_render :
    let n : Schema := ⟨[("n", .int64)], by decide⟩
    let five : Scalar := .int .int64 (Bounded.clamp _ _ (by decide) (-5))
    let scanned : Plan := .node (.scan "t") ⟨0⟩ n []
    let negated : Expr := .aliased "m" (.unary .negate (.literal five))
    let schema : Schema := ⟨[("m", DataType.int64.nonNull)], by decide⟩
    let t : Table := ⟨.node (.project [negated]) ⟨1⟩ schema [scanned], .standard⟩
    Table.Built ⟨2⟩ t ∧ (∀ q ∈ t.root.nodes, ∀ query, q.op ≠ .sqlQuery query) ∧
      Dialect.ansi.render .statement t.root = .ok "SELECT (--5) AS m FROM t AS t0" ∧
      ¬ WellFormed "SELECT (--5) AS m FROM t AS t0" := by
  intro n five scanned negated schema t
  have hscanned : (Table.scan "t" n).Gives ⟨0⟩ ⟨scanned, .standard⟩ ⟨1⟩ := rfl
  have ht : (Table.select ⟨scanned, .standard⟩ [negated]).Gives ⟨1⟩ t ⟨2⟩ := rfl
  have hqueries : ∀ q ∈ t.root.nodes, ∀ query, q.op ≠ .sqlQuery query := by
    refine List.forall_mem_cons.mpr ⟨?_, List.forall_mem_singleton.mpr ?_⟩ <;>
      exact fun _ hq => nomatch hq
  exact ⟨.select (.scan hscanned) ht, hqueries, toOption_eq_some_iff.mp (by decide +kernel),
    by decide⟩

end Dialect

end Sql

end TableQuery
