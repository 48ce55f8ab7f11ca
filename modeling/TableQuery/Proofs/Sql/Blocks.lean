import TableQuery.Proofs.Sql.Rendering

/-! # Rendered plans as SELECTs

The text of a plan is put together of SELECTs that stand in each other's FROM. A `Block` has the
parts of such a text apart: what a SELECT computes, what it reads, and the items of its GROUP BY and
ORDER BY. `Dialect.block` renders a plan to it, and the text of this block is the text of the plan
(`Dialect.render_eq_block`), so that what is said about the items of blocks is said about the
text. -/

namespace TableQuery.Sql

/-- A key of an ORDER BY, with its direction. -/
structure OrderItem where
  key : String
  direction : String

/-- **The parts of a rendered node.** -/
inductive Block where
  /-- A table, a raw query or rows as they stand in a FROM. -/
  | relation (text : String)
  /-- A SELECT over one block, with its clauses; an ORDER BY without keys is written too. -/
  | select (ref : TableRef) (items : String) (source : Block) (condition : String)
      (groupBy : List String) (orderBy : Option (List OrderItem)) (limit : String)
  /-- A SELECT over two blocks. -/
  | join (ref : TableRef) (items : String) (left : Block) (between : String) (right : Block)
      (behind : String) (limit : String)

namespace Block

/-- The GROUP BY of some items. -/
def groupByText (items : List String) : String :=
  if items.isEmpty then "" else " GROUP BY " ++ ", ".intercalate items

/-- The ORDER BY of some items. -/
def orderByText : Option (List OrderItem) → String
  | none => ""
  | some items => " ORDER BY " ++ ", ".intercalate (items.map fun i => i.key ++ " " ++ i.direction)

@[simp] theorem groupByText_nil : groupByText [] = "" := rfl

@[simp] theorem orderByText_none : orderByText none = "" := rfl

/-- The text of a block. -/
def text (form : Form) : Block → String
  | relation t => form.ofRelation t
  | select ref items source condition groupBy orderBy limit =>
    form.ofStatement ref ("SELECT " ++ items ++ " FROM " ++ source.text .source ++ condition ++
      groupByText groupBy ++ orderByText orderBy ++ limit)
  | join ref items left between right behind limit =>
    form.ofStatement ref ("SELECT " ++ items ++ " FROM " ++ left.text .source ++ between ++
      right.text .source ++ behind ++ limit)

/-- The items of all GROUP BY and ORDER BY lists. -/
def keys : Block → List String
  | relation _ => []
  | select _ _ source _ groupBy orderBy _ =>
    groupBy ++ (orderBy.getD []).map OrderItem.key ++ source.keys
  | join _ _ left _ right _ _ => left.keys ++ right.keys

/-- A block under another name, with a limit behind it. -/
def limited (ref : TableRef) (clause : String) : Block → Block
  | relation t => .select ref "*" (.relation t) "" [] none clause
  | select _ items source condition groupBy orderBy limit =>
    .select ref items source condition groupBy orderBy (limit ++ clause)
  | join _ items left between right behind limit =>
    .join ref items left between right behind (limit ++ clause)

theorem text_limited (form : Form) (ref : TableRef) (clause : String) (b : Block) :
    (b.limited ref clause).text form = form.ofStatement ref (b.text .statement ++ clause) := by
  cases b <;>
    simp [limited, text, Form.ofStatement, Form.ofRelation, groupByText, orderByText,
      String.append_assoc]

theorem keys_limited (ref : TableRef) (clause : String) (b : Block) :
    (b.limited ref clause).keys = b.keys := by
  cases b <;> rfl

end Block

namespace Dialect

open Result

variable (d : Dialect)

/-- An item of an ORDER BY. -/
def orderItem (scope : NameScope) (key : SortKey Expr) : Result OrderItem := do
  return ⟨← d.expr scope key.expr, key.directionText⟩

/-- The items of an ORDER BY. -/
def orderItems (scope : NameScope) (keys : List (SortKey Expr)) : Result (List OrderItem) :=
  keys.mapM (d.orderItem scope)

/-- The items of an ORDER BY that repeats the ordering of an input. -/
def repeatedItems (input : TableRef) (keys : Option (List (SortKey Expr))) :
    Result (Option (List OrderItem)) :=
  match keys with
  | some (k :: ks) => (d.orderItems (.qualified input) (k :: ks)).map some
  | _ => .ok none

/-- The items of a GROUP BY. -/
def groupItems (keys : List Expr) : Result (List String) :=
  keys.mapM fun k => d.expr .single k.unaliased

/-- The statement of a join around the text of its right side. -/
def joinParts (j : Join) (on : String) : String × String :=
  let joined (how : String) := (" " ++ how ++ " ", " ON " ++ on)
  let matching (how : String) := (how ++ "EXISTS (SELECT 1 FROM ", " WHERE " ++ on ++ ")")
  match j.kind with
  | .semi => matching " WHERE "
  | .anti => matching " WHERE NOT "
  | .inner =>
    if j.conditions.isEmpty && j.residual.isNone then (" CROSS JOIN ", "") else joined "INNER JOIN"
  | .left => joined "LEFT JOIN"
  | .right => joined "RIGHT JOIN"
  | .full => joined "FULL OUTER JOIN"

/-- **A plan as a block.** -/
def block (d : Dialect) : Plan → Result Block
  | .node (.scan table) ref _ _ => .ok (.relation (d.name table ++ " AS " ++ tableAlias ref))
  | .node (.sqlQuery query) ref _ _ =>
    .ok (.relation ("(" ++ query ++ ") AS " ++ tableAlias ref))
  | .node (.values batch) ref schema _ => (d.values batch schema ref).map .relation
  | .node (.project exprs) ref _ [.node (.order keys) _ _ [input]] => do
    let items ← d.selectItems exprs
    let source ← block d input
    let order ← d.repeatedItems input.ref (some keys)
    return .select ref items source "" [] order ""
  | .node (.project exprs) ref _ [input] => do
    let items ← d.selectItems exprs
    let source ← block d input
    let order ← d.repeatedItems input.ref input.ordering?
    return .select ref items source "" [] order ""
  | .node (.filter predicate) ref _ [.node (.order keys) _ _ [input]] => do
    let source ← block d input
    let condition ← d.expr .single predicate
    let order ← d.repeatedItems input.ref (some keys)
    return .select ref "*" source (" WHERE " ++ condition) [] order ""
  | .node (.filter predicate) ref _ [input] => do
    let source ← block d input
    let condition ← d.expr .single predicate
    let order ← d.repeatedItems input.ref input.ordering?
    return .select ref "*" source (" WHERE " ++ condition) [] order ""
  | .node (.aggregate keys metrics) ref _ [input] => do
    let items ← d.selectItems (keys ++ metrics)
    let source ← block d input
    let groups ← d.groupItems keys
    return .select ref items source "" groups none ""
  | .node (.order keys) ref _ [input] => do
    let source ← block d input
    let order ← d.orderItems .single keys
    return .select ref "*" source "" [] (some order) ""
  | .node (.limit n offset) ref _ [.node (.limit m skipped) inner schema children] => do
    let source ← block d (.node (.limit m skipped) inner schema children)
    let order ← d.repeatedItems inner
      (Plan.node (.limit m skipped) inner schema children).ordering?
    return .select ref "*" source "" [] order (limitClause n offset)
  | .node (.limit n offset) ref _ [input] => do
    return (← block d input).limited ref (limitClause n offset)
  | .node (.join j) ref _ [left, right] => do
    let on ← d.joinPredicate j left right
    let outputs := ", ".intercalate (j.outputs.map (d.joinOutput left.ref right.ref))
    let leftSource ← block d left
    let rightSource ← block d right
    let (between, behind) := joinParts j on
    return .join ref outputs leftSource between rightSource behind ""
  | .node (.join _) _ _ _ => .error (.plan (.twoChildren none))
  | .node _ _ _ children => .error (.plan (.oneSource children.length))

/-! ### The text of a block -/

theorem sortKeys_eq (scope : NameScope) (keys : List (SortKey Expr)) : d.sortKeys scope keys =
    (d.orderItems scope keys).map (·.map fun i => i.key ++ " " ++ i.direction) := by
  unfold orderItems
  induction keys with
  | nil => rfl
  | cons k ks ih =>
    obtain ⟨e, descending, nullsFirst⟩ := k
    simp only [sortKeys, ih, List.mapM_cons, orderItem]
    cases d.expr scope e with
    | error _ => rfl
    | ok x => cases ks.mapM (d.orderItem scope) <;> rfl

theorem orderBy_eq (scope : NameScope) (keys : List (SortKey Expr)) :
    d.orderBy scope keys = (d.orderItems scope keys).map (Block.orderByText ∘ some) := by
  rw [orderBy, sortKeys_eq]
  cases d.orderItems scope keys <;> rfl

theorem repeatedOrderBy_eq (input : TableRef) (keys : Option (List (SortKey Expr))) :
    d.repeatedOrderBy input keys = (d.repeatedItems input keys).map Block.orderByText := by
  rcases keys with _ | _ | ⟨k, ks⟩
  · rfl
  · rfl
  · rw [repeatedOrderBy, repeatedItems, orderBy_eq]
    cases d.orderItems (.qualified input) (k :: ks) <;> rfl

theorem groupBy_eq (keys : List Expr) :
    d.groupBy keys = (d.groupItems keys).map Block.groupByText := by
  cases keys with
  | nil => rfl
  | cons k ks =>
    rw [groupBy, if_neg (by simp), groupItems, List.mapM_cons]
    cases d.expr .single k.unaliased with
    | error _ => rfl
    | ok x => cases ks.mapM fun k => d.expr .single k.unaliased <;> rfl

theorem joinStatement_eq (j : Join) (outputs left right on : String) :
    joinStatement j outputs left right on = "SELECT " ++ outputs ++ " FROM " ++ left ++
      (joinParts j on).1 ++ right ++ (joinParts j on).2 := by
  unfold joinStatement joinParts
  cases j.kind <;> dsimp only
  case inner => split <;> simp only [String.append_assoc, String.append_empty]
  all_goals simp only [String.append_assoc]

theorem select_all (rest : String) :
    "SELECT " ++ ("*" ++ (" FROM " ++ rest)) = "SELECT * FROM " ++ rest := by
  rw [← String.append_assoc, ← String.append_assoc]
  rfl

/-- **The text of a plan is that of its block.** -/
theorem render_eq_block (form : Form) (p : Plan) :
    d.render form p = (d.block p).map (Block.text form) := by
  -- The steps of a node are those of its block, and the two texts differ in their brackets only.
  fun_induction render d form p with
  | case1 | case2 => rfl
  | case3 =>
    rw [block]
    cases d.values _ _ _ <;> rfl
  | case4 | case5 | case6 | case7 | case8 | case9 | case10 | case11 | case12 =>
    simp only [block, map_of_bind, bind_of_map, repeatedOrderBy_eq, orderBy_eq, groupBy_eq,
      joinStatement_eq, pure_eq_ok, *]
    simp only [Except.map, Function.comp, Block.text_limited, Block.text, Block.groupByText_nil,
      Block.orderByText_none, String.append_assoc, String.append_empty, select_all]
  | case13 | case14 =>
    rw [block]
    · rfl
    all_goals assumption

end Dialect

end TableQuery.Sql
