import TableQuery.Proofs.Relation.Leaves
import TableQuery.Proofs.Sql.Blocks
import TableQuery.Proofs.Sql.Ordering
import TableQuery.Proofs.Sql.Pieces
import TableQuery.Proofs.Sql.Quoting

/-! # Keys that SQL reads as positions

In a GROUP BY or ORDER BY a bare integer is not a constant: it is the position of a column of the
SELECT. The items of these clauses are the keys of the plan's aggregations and sorts, all of them
and no others (`Dialect.keysWritten_block`), and the text of a key is an integer exactly if the key
is an integer constant (`Dialect.isInteger_expr`). So a key of any other form is read as what it is
(`Table.Built.integer_items`), but constants are written without parentheses here too, and a plan
that groups or sorts by one is read as one that groups or sorts by a column
(`Table.Built.not_integer_items`). -/

namespace TableQuery

open Result

namespace Sql

/-! ### Integers -/

/-- Whether a text is one or more digits. -/
def isNumeral (cs : List Char) : Bool := !cs.isEmpty && cs.all Char.isDigit

/-- **Whether a text is an integer**: digits, with a minus sign before them or not. -/
def isInteger (s : String) : Bool :=
  match s.toList with
  | '-' :: ds => isNumeral ds
  | ds => isNumeral ds

theorem isNumeral_nat (n : Nat) : isNumeral (toString n).toList = true := by
  change isNumeral (String.ofList (Nat.toDigits 10 n)).toList = true
  rw [String.toList_ofList, isNumeral, Bool.and_eq_true, List.all_eq_true, Bool.not_eq_true',
    List.isEmpty_eq_false_iff]
  exact ⟨Nat.toDigits_ne_nil, fun _ => isDigit_of_mem_toDigits⟩

theorem isInteger_of_isNumeral {s : String} (h : isNumeral s.toList = true) :
    isInteger s = true := by
  unfold isInteger
  split
  · rename_i ds hds
    rw [hds] at h
    cases h
  · exact h

theorem isInteger_signed {s : String} (h : isNumeral s.toList = true) (negative : Prop)
    [Decidable negative] : isInteger ((if negative then "-" else "") ++ s) = true := by
  split
  · rw [isInteger, String.toList_append]
    exact h
  · rw [String.empty_append]
    exact isInteger_of_isNumeral h

theorem isInteger_int : ∀ v : Int, isInteger (toString v) = true
  | .ofNat n => isInteger_of_isNumeral (isNumeral_nat n)
  | .negSucc n => isInteger_signed (isNumeral_nat (n + 1)) True

/-- **A text with a character that no integer has.** -/
def HasOther (s : String) : Prop := ∃ c ∈ s.toList, c ≠ '-' ∧ c.isDigit = false

instance (s : String) : Decidable (HasOther s) :=
  decidable_of_iff (s.toList.any (fun c => c != '-' && !c.isDigit) = true) (by simp [HasOther])

namespace HasOther

variable {s : String}

theorem append (h : HasOther s) (rest : String) : HasOther (s ++ rest) := by
  obtain ⟨c, hc, hother⟩ := h
  exact ⟨c, by rw [String.toList_append]; exact List.mem_append_left _ hc, hother⟩

theorem behind (h : HasOther s) (front : String) : HasOther (front ++ s) := by
  obtain ⟨c, hc, hother⟩ := h
  exact ⟨c, by rw [String.toList_append]; exact List.mem_append_right _ hc, hother⟩

theorem not_isInteger (h : HasOther s) : isInteger s = false := by
  obtain ⟨c, hc, hminus, hdigit⟩ := h
  have hnumeral : ∀ cs : List Char, c ∈ cs → isNumeral cs = false := fun cs hmem =>
    Bool.and_eq_false_imp.mpr fun _ => List.all_eq_false.mpr ⟨c, hmem, by simp [hdigit]⟩
  unfold isInteger
  split
  · rename_i ds hds
    rw [hds] at hc
    exact hnumeral ds ((List.mem_cons.mp hc).resolve_left hminus)
  · exact hnumeral _ hc

end HasOther

theorem hasOther_quoted {q : Char} (hq : q ∈ quoteChars) (s : String) : HasOther (quoted q s) := by
  have hother : ∀ q ∈ quoteChars, q ≠ '-' ∧ q.isDigit = false := by simp [quoteChars]
  exact ⟨q, by rw [toList_quoted]; exact List.mem_cons_self, hother q hq⟩

/-- Floating point values keep a point or an exponent. -/
theorem hasOther_write (n : DecimalDigits) : HasOther (FloatLayout.literal.write n) := by
  unfold FloatLayout.write
  dsimp only
  split
  · exact (HasOther.behind (by decide) _).append _
  · unfold FloatLayout.positional
    dsimp only
    split
    · exact HasOther.behind (s := ".0") (by decide) _
    · exact (HasOther.behind (by decide) _).append _

theorem hasOther_floatLiteral : ∀ x : FloatValue, HasOther (floatLiteral x)
  | .nan => by decide
  | .infinity _ => ((by decide : HasOther "CAST('").append _).append _
  | .finite _ _ => (hasOther_write _).behind _

end Sql

open Sql

/-- Whether a value is a whole number by its type. -/
def Scalar.isWhole : Scalar → Bool
  | .int _ _ => true
  | .decimal d => d.scale == 0
  | _ => false

/-- **Whether an expression is an integer constant**, which may have names. -/
def Expr.isIntegerConstant (e : Expr) : Bool :=
  match e.unaliased with
  | .literal v => v.isWhole
  | _ => false

namespace Sql

theorem hasOther_literal {v : Scalar} (h : v.isWhole = false) : HasOther (literal v) := by
  have hfronts : ∀ w ∈ fronts, HasOther w := by decide
  cases hfront : v.front? with
  | some w =>
    obtain ⟨hw, rest, hliteral⟩ := literal_front hfront
    rw [hliteral]
    exact (hfronts w hw).append rest
  | none =>
    cases v with
    | int _ v => cases h
    | null =>
      rw [literal]
      decide
    | boolean b =>
      rw [literal]
      cases b <;> decide
    | decimal d =>
      have hscale : d.scale ≠ 0 := by simpa [Scalar.isWhole] using h
      rw [literal, Decimal.text_eq, Decimal.unsignedText, if_neg hscale]
      exact ((HasOther.behind (by decide) _).append _).behind _
    | float t v =>
      rw [literal]
      exact hasOther_floatLiteral _
    | timestamp _ zone => cases zone <;> cases hfront
    | _ => cases hfront

/-- **The literal of a value is an integer** if the value is a whole number by its type. -/
theorem isInteger_literal (v : Scalar) : isInteger (literal v) = v.isWhole := by
  cases h : v.isWhole with
  | false => exact (hasOther_literal h).not_isInteger
  | true =>
    cases v with
    | int _ v =>
      rw [literal]
      exact isInteger_int v.val
    | decimal d =>
      have hscale : d.scale = 0 := by simpa [Scalar.isWhole] using h
      rw [literal, Decimal.text_eq, Decimal.unsignedText, if_pos hscale]
      exact isInteger_signed (isNumeral_nat _) _
    | _ => cases h

namespace Dialect

variable {d : Dialect}

theorem hasOther_of_isBareName {n : String} (h : isBareName n = true) : HasOther n := by
  rw [isBareName, Bool.and_eq_true] at h
  obtain ⟨h, -⟩ := h
  cases hn : n.toList with
  | nil =>
    rw [hn] at h
    cases h
  | cons c r =>
    rw [hn, Bool.and_eq_true] at h
    refine ⟨c, by rw [hn]; exact List.mem_cons_self, ?_, ?_⟩
    · rintro rfl
      cases h.1
    · rw [Bool.eq_false_iff]
      intro hdigit
      rw [isBareStart_of_isDigit hdigit] at h
      cases h.1

theorem hasOther_name (d : Dialect) (n : String) : HasOther (d.name n) := by
  cases hn : d.quotes n with
  | true =>
    rw [name_of_quotes hn]
    exact hasOther_quoted d.quote.char_mem n
  | false =>
    rw [name_of_not_quotes hn]
    exact hasOther_of_isBareName (isBareName_of_not_quotes hn)

theorem hasOther_aggregateCall (f : AggregateFunction) (input : Option String) :
    HasOther (aggregateCall f input) := by
  unfold aggregateCall
  split
  · decide
  · unfold AggregateFunction.call
    split
    · decide
    · split
      · exact ((by decide : HasOther "count(DISTINCT ").append _).append _
      · have hname : HasOther f.name := by cases f <;> decide
        exact ((hname.append _).append _).append _

/-- **The text of an expression is an integer** if the expression is an integer constant. -/
theorem isInteger_expr {scope : NameScope} : ∀ {e : Expr} {x : String},
    d.expr scope e = .ok x → isInteger x = e.isIntegerConstant
  | .column table n, x, h => by
    rw [expr] at h
    refine HasOther.not_isInteger ?_
    rcases column_cases h with rfl | ⟨ref, rfl⟩
    · exact d.hasOther_name n
    · exact (d.hasOther_name n).behind _
  | .literal v, x, h => by
    cases h
    exact isInteger_literal v
  | .arith op a b, x, h | .compare op a b, x, h => by
    rw [expr] at h
    obtain ⟨y, -, h⟩ := bind_eq_ok_iff.mp h
    obtain ⟨z, -, h⟩ := bind_eq_ok_iff.mp h
    cases h
    exact HasOther.not_isInteger (HasOther.behind (by decide) _)
  | .conj op es, x, h => by
    rw [expr] at h
    obtain ⟨ys, -, h⟩ := bind_eq_ok_iff.mp h
    cases h
    exact HasOther.not_isInteger (HasOther.behind (by decide) _)
  | .unary op e, x, h => by
    rw [expr] at h
    obtain ⟨y, -, h⟩ := bind_eq_ok_iff.mp h
    cases h
    exact HasOther.not_isInteger (HasOther.behind (by decide) _)
  | .aggregate f input, x, h => by
    rw [expr] at h
    obtain ⟨y, -, h⟩ := bind_eq_ok_iff.mp h
    cases h
    exact (hasOther_aggregateCall f y).not_isInteger
  | .window f input ps ks, x, h => by
    rw [expr] at h
    obtain ⟨partitions, -, h⟩ := bind_eq_ok_iff.mp h
    obtain ⟨keys, -, h⟩ := bind_eq_ok_iff.mp h
    cases f with
    | rowNumber =>
      cases h
      exact HasOther.not_isInteger (HasOther.behind (by decide) _)
    | aggregate f =>
      obtain ⟨y, -, h⟩ := bind_eq_ok_iff.mp h
      cases h
      exact HasOther.not_isInteger (HasOther.behind (by decide) _)
  | .aliased n e, x, h => by
    rw [expr] at h
    exact isInteger_expr (e := e) h

variable (d) in
theorem expr_unaliased (scope : NameScope) : ∀ e : Expr, d.expr scope e.unaliased = d.expr scope e
  | .aliased _ e => by
    rw [Expr.unaliased, expr]
    exact expr_unaliased scope e
  | .column _ _ | .literal _ | .arith _ _ _ | .compare _ _ _ | .conj _ _ | .unary _ _
  | .aggregate _ _ | .window _ _ _ _ => rfl

end Dialect

end Sql

/-! ### The keys of a plan -/

/-- The expressions by which an operation groups or sorts. -/
def Operation.keys : Operation → List Expr
  | .aggregate groupBy _ => groupBy
  | .order keys => keys.map SortKey.expr
  | _ => []

namespace Plan

/-- **The expressions by which the nodes of a plan group and sort.** -/
def keys (p : Plan) : List Expr := p.nodes.flatMap fun q => q.op.keys

theorem keys_leaf (op : Operation) (ref : TableRef) (schema : Schema) :
    (node op ref schema []).keys = op.keys := by
  simp [keys, nodes, nodesOfAll, Plan.op]

theorem keys_unary (op : Operation) (ref : TableRef) (schema : Schema) (c : Plan) :
    (node op ref schema [c]).keys = op.keys ++ c.keys := by
  simp [keys, nodes, nodesOfAll, Plan.op]

theorem keys_binary (op : Operation) (ref : TableRef) (schema : Schema) (l r : Plan) :
    (node op ref schema [l, r]).keys = op.keys ++ (l.keys ++ r.keys) := by
  simp [keys, nodes, nodesOfAll, Plan.op]

theorem Checked.child {op : Operation} {ref : TableRef} {schema : Schema} {c : Plan}
    (h : (node op ref schema [c]).Checked) : c.Checked :=
  h.of_mem_nodes c (mem_nodes_of_child List.mem_cons_self c.mem_nodes_self)

/-- The keys of an ordering that is found are keys of the plan. -/
theorem KeepsOrder.subset_keys {keys : List (SortKey Expr)} {p : Plan} (h : p.KeepsOrder keys) :
    keys.map SortKey.expr ⊆ p.keys := by
  induction h with
  | order =>
    rw [keys_unary]
    exact List.subset_append_left _ _
  | filter _ ih | limit _ ih | project _ _ ih =>
    rw [keys_unary]
    exact List.Subset.trans ih (List.subset_append_right _ _)

end Plan

namespace Sql

/-! ### The items of a block -/

/-- A key and a text of it. -/
def Dialect.Writes (d : Dialect) (key : Expr) (item : String) : Prop :=
  ∃ scope, d.expr scope key = .ok item

theorem Dialect.Writes.isInteger_eq {d : Dialect} {key : Expr} {item : String}
    (h : d.Writes key item) : isInteger item = key.isIntegerConstant := by
  obtain ⟨scope, h⟩ := h
  exact isInteger_expr h

/-- **Items are the texts of keys**: of all of them and of no others. -/
structure KeysWritten (d : Dialect) (keys : List Expr) (items : List String) : Prop where
  key_of_item : ∀ item ∈ items, ∃ k ∈ keys, d.Writes k item
  item_of_key : ∀ k ∈ keys, ∃ item ∈ items, d.Writes k item

namespace KeysWritten

variable {d : Dialect} {keys ks : List Expr} {items more : List String}

theorem nil : KeysWritten d [] [] := ⟨List.forall_mem_nil _, List.forall_mem_nil _⟩

theorem append (h : KeysWritten d keys items) (hmore : KeysWritten d ks more) :
    KeysWritten d (keys ++ ks) (items ++ more) := by
  refine ⟨fun item hitem => ?_, fun k hk => ?_⟩
  · rcases List.mem_append.mp hitem with hitem | hitem
    · obtain ⟨k, hk, hwrites⟩ := h.key_of_item item hitem
      exact ⟨k, List.mem_append_left _ hk, hwrites⟩
    · obtain ⟨k, hk, hwrites⟩ := hmore.key_of_item item hitem
      exact ⟨k, List.mem_append_right _ hk, hwrites⟩
  · rcases List.mem_append.mp hk with hk | hk
    · obtain ⟨item, hitem, hwrites⟩ := h.item_of_key k hk
      exact ⟨item, List.mem_append_left _ hitem, hwrites⟩
    · obtain ⟨item, hitem, hwrites⟩ := hmore.item_of_key k hk
      exact ⟨item, List.mem_append_right _ hitem, hwrites⟩

/-- Keys may be written more than once. -/
theorem repeated (hmore : KeysWritten d ks more) (hks : ks ⊆ keys) (h : KeysWritten d keys items) :
    KeysWritten d keys (more ++ items) := by
  have hboth := hmore.append h
  refine ⟨fun item hitem => ?_, fun k hk => hboth.item_of_key k (List.mem_append_right _ hk)⟩
  obtain ⟨k, hk, hwrites⟩ := hboth.key_of_item item hitem
  exact ⟨k, (List.mem_append.mp hk).elim (fun hk => hks hk) id, hwrites⟩

theorem of_mapM {α β : Type} {f : α → Result β} {key : α → Expr} {text : β → String}
    (hf : ∀ x y, f x = .ok y → d.Writes (key x) (text y)) {xs : List α} {ys : List β}
    (h : xs.mapM f = .ok ys) : KeysWritten d (xs.map key) (ys.map text) := by
  refine ⟨List.forall_mem_map.mpr fun y hy => ?_, List.forall_mem_map.mpr fun x hx => ?_⟩
  · obtain ⟨x, hx, hxy⟩ := exists_of_mem_mapM h y hy
    exact ⟨key x, List.mem_map_of_mem hx, hf x y hxy⟩
  · obtain ⟨y, hy, hxy⟩ := exists_of_mapM h hx
    exact ⟨text y, List.mem_map_of_mem hy, hf x y hxy⟩

end KeysWritten

namespace Dialect

variable {d : Dialect}

theorem keysWritten_orderItems {scope : NameScope} {keys : List (SortKey Expr)}
    {items : List OrderItem} (h : d.orderItems scope keys = .ok items) :
    KeysWritten d (keys.map SortKey.expr) (items.map OrderItem.key) := by
  refine .of_mapM (fun k item hitem => ?_) h
  obtain ⟨x, hx, hitem⟩ := bind_eq_ok_iff.mp hitem
  cases hitem
  exact ⟨scope, hx⟩

theorem keysWritten_repeatedItems {input : TableRef} {keys : Option (List (SortKey Expr))}
    {items : Option (List OrderItem)} (h : d.repeatedItems input keys = .ok items) :
    KeysWritten d ((keys.getD []).map SortKey.expr) ((items.getD []).map OrderItem.key) := by
  rcases keys with _ | _ | ⟨k, ks⟩
  · cases h
    exact .nil
  · cases h
    exact .nil
  · obtain ⟨found, hfound, rfl⟩ := map_eq_ok_iff.mp h
    exact keysWritten_orderItems hfound

theorem keysWritten_groupItems {keys : List Expr} {items : List String}
    (h : d.groupItems keys = .ok items) : KeysWritten d keys items := by
  have hwritten : KeysWritten d (keys.map id) (items.map id) :=
    .of_mapM (fun k item hitem => ⟨.single, by rw [← expr_unaliased]; exact hitem⟩) h
  simpa only [List.map_id] using hwritten

/-- The ordering that is repeated for an input has keys of the input. -/
theorem keysWritten_of_repeatedItems {p : Plan} (hp : p.Checked) {input : TableRef}
    {order : Option (List OrderItem)} (horder : d.repeatedItems input p.ordering? = .ok order)
    {items : List String} (h : KeysWritten d p.keys items) :
    KeysWritten d p.keys ((order.getD []).map OrderItem.key ++ items) := by
  refine (keysWritten_repeatedItems horder).repeated ?_ h
  cases hordering : p.ordering? with
  | none => exact List.nil_subset _
  | some keys => exact ((Plan.ordering?_eq_some_iff hp).mp hordering).subset_keys

/-- **The items of a plan's text are its keys.** -/
theorem keysWritten_block {p : Plan} (hp : p.Checked) {b : Block} (h : d.block p = .ok b) :
    KeysWritten d p.keys b.keys := by
  fun_induction block d p generalizing b with
  | case1 | case2 =>
    cases hp
    cases h
    rw [Plan.keys_leaf]
    exact .nil
  | case3 =>
    cases hp
    obtain ⟨text, -, rfl⟩ := map_eq_ok_iff.mp h
    rw [Plan.keys_leaf]
    exact .nil
  -- A sort below a projection or filter is not written itself: its keys are those of the SELECT.
  | case4 _ _ _ keys _ _ input ih =>
    obtain ⟨items, -, h⟩ := bind_eq_ok_iff.mp h
    obtain ⟨source, hsource, h⟩ := bind_eq_ok_iff.mp h
    obtain ⟨order, horder, h⟩ := bind_eq_ok_iff.mp h
    cases h
    rw [Plan.keys_unary, Plan.keys_unary]
    exact (keysWritten_repeatedItems horder).append (ih hp.child.child hsource)
  | case6 _ _ _ keys _ _ input ih =>
    obtain ⟨source, hsource, h⟩ := bind_eq_ok_iff.mp h
    obtain ⟨condition, -, h⟩ := bind_eq_ok_iff.mp h
    obtain ⟨order, horder, h⟩ := bind_eq_ok_iff.mp h
    cases h
    rw [Plan.keys_unary, Plan.keys_unary]
    exact (keysWritten_repeatedItems horder).append (ih hp.child.child hsource)
  | case5 _ _ _ input _ ih =>
    obtain ⟨items, -, h⟩ := bind_eq_ok_iff.mp h
    obtain ⟨source, hsource, h⟩ := bind_eq_ok_iff.mp h
    obtain ⟨order, horder, h⟩ := bind_eq_ok_iff.mp h
    cases h
    rw [Plan.keys_unary]
    exact keysWritten_of_repeatedItems hp.child horder (ih hp.child hsource)
  | case7 _ _ _ input _ ih =>
    obtain ⟨source, hsource, h⟩ := bind_eq_ok_iff.mp h
    obtain ⟨condition, -, h⟩ := bind_eq_ok_iff.mp h
    obtain ⟨order, horder, h⟩ := bind_eq_ok_iff.mp h
    cases h
    rw [Plan.keys_unary]
    exact keysWritten_of_repeatedItems hp.child horder (ih hp.child hsource)
  | case8 keys metrics _ _ input ih =>
    obtain ⟨items, -, h⟩ := bind_eq_ok_iff.mp h
    obtain ⟨source, hsource, h⟩ := bind_eq_ok_iff.mp h
    obtain ⟨groups, hgroups, h⟩ := bind_eq_ok_iff.mp h
    cases h
    rw [Plan.keys_unary, Block.keys, Option.getD_none, List.map_nil, List.append_nil]
    exact (keysWritten_groupItems hgroups).append (ih hp.child hsource)
  | case9 keys _ _ input ih =>
    obtain ⟨source, hsource, h⟩ := bind_eq_ok_iff.mp h
    obtain ⟨order, horder, h⟩ := bind_eq_ok_iff.mp h
    cases h
    rw [Plan.keys_unary]
    exact (keysWritten_orderItems horder).append (ih hp.child hsource)
  | case10 n offset _ _ m skipped inner schema children ih =>
    obtain ⟨source, hsource, h⟩ := bind_eq_ok_iff.mp h
    obtain ⟨order, horder, h⟩ := bind_eq_ok_iff.mp h
    cases h
    rw [Plan.keys_unary]
    exact keysWritten_of_repeatedItems hp.child horder (ih hp.child hsource)
  | case11 _ _ _ _ input _ ih =>
    obtain ⟨source, hsource, h⟩ := bind_eq_ok_iff.mp h
    cases h
    rw [Plan.keys_unary, Block.keys_limited]
    exact ih hp.child hsource
  | case12 j _ _ left right ihleft ihright =>
    obtain ⟨on, -, h⟩ := bind_eq_ok_iff.mp h
    obtain ⟨leftSource, hleft, h⟩ := bind_eq_ok_iff.mp h
    obtain ⟨rightSource, hright, h⟩ := bind_eq_ok_iff.mp h
    cases h
    cases hp with
    | join hl hr =>
    rw [Plan.keys_binary]
    exact (ihleft hl hleft).append (ihright hr hright)
  | case13 | case14 => cases h

end Dialect

end Sql

namespace Table

/-- **The items of GROUP BY and ORDER BY lists are integers exactly for integer constants**, in
every dialect and for every table that calls can build and that is rendered. The text is made of
SELECTs whose items are the texts of the keys of the plan's aggregations and sorts, of all of them
and of no others; an item is an integer if its key is an integer constant, and then only. So SQL
reads no item as a position exactly if the plan groups and sorts by no such constant. -/
theorem Built.integer_items {next : TableRef} {t : Table} (h : Built next t) (d : Dialect)
    {sql : String} (hsql : d.render .statement t.root = .ok sql) :
    ∃ b, d.block t.root = .ok b ∧ b.text .statement = sql ∧
      (∀ item ∈ b.keys, ∃ k ∈ t.root.keys,
        d.Writes k item ∧ isInteger item = k.isIntegerConstant) ∧
      (∀ k ∈ t.root.keys, ∃ item ∈ b.keys,
        d.Writes k item ∧ isInteger item = k.isIntegerConstant) ∧
      ((∀ item ∈ b.keys, isInteger item = false) ↔
        ∀ k ∈ t.root.keys, k.isIntegerConstant = false) := by
  rw [Dialect.render_eq_block] at hsql
  obtain ⟨b, hb, htext⟩ := map_eq_ok_iff.mp hsql
  have hwritten := Dialect.keysWritten_block h.sound.checked hb
  have hitems : ∀ item ∈ b.keys, ∃ k ∈ t.root.keys,
      d.Writes k item ∧ isInteger item = k.isIntegerConstant := by
    intro item hitem
    obtain ⟨k, hk, hwrites⟩ := hwritten.key_of_item item hitem
    exact ⟨k, hk, hwrites, hwrites.isInteger_eq⟩
  have hkeys : ∀ k ∈ t.root.keys, ∃ item ∈ b.keys,
      d.Writes k item ∧ isInteger item = k.isIntegerConstant := by
    intro k hk
    obtain ⟨item, hitem, hwrites⟩ := hwritten.item_of_key k hk
    exact ⟨item, hitem, hwrites, hwrites.isInteger_eq⟩
  refine ⟨b, hb, htext, hitems, hkeys, fun hnone k hk => ?_, fun hnone item hitem => ?_⟩
  · obtain ⟨item, hitem, -, heq⟩ := hkeys k hk
    rw [← heq]
    exact hnone item hitem
  · obtain ⟨k, hk, -, heq⟩ := hitems item hitem
    rw [heq]
    exact hnone k hk

/-- A filter over rows that are ordered by a sum: the constant in it stands in parentheses. -/
theorem Built.integer_items_sum :
    let n : Schema := ⟨[("n", .int64)], by decide⟩
    let one : Scalar := .int .int64 (Bounded.clamp _ _ (by decide) 1)
    let sum : Expr := .arith .add (.col "n") (.literal one)
    let above : Expr := .compare .gt (.col "n") (.literal one)
    let scanned : Plan := .node (.scan "t") ⟨0⟩ n []
    let ordered : Plan := .node (.order [⟨sum, false, false⟩]) ⟨1⟩ n [scanned]
    let t : Table := ⟨.node (.filter above) ⟨2⟩ n [ordered], .standard⟩
    let sql := "SELECT * FROM t AS t0 WHERE (n > 1) ORDER BY (t0.n + 1) ASC NULLS LAST"
    Built ⟨3⟩ t ∧ Dialect.ansi.render .statement t.root = .ok sql ∧
      ∃ b, Dialect.ansi.block t.root = .ok b ∧ b.text .statement = sql ∧
        ∀ item ∈ b.keys, isInteger item = false := by
  intro n one sum above scanned ordered t sql
  have hscanned : (Table.scan "t" n).Gives ⟨0⟩ ⟨scanned, .standard⟩ ⟨1⟩ := rfl
  have hordered : (Table.orderBy ⟨scanned, .standard⟩ [⟨sum, false, false⟩]).Gives ⟨1⟩
      ⟨ordered, .standard⟩ ⟨2⟩ := rfl
  have ht : (Table.filter ⟨ordered, .standard⟩ above).Gives ⟨2⟩ t ⟨3⟩ := rfl
  have hbuilt : Built ⟨3⟩ t := .filter (.orderBy (.scan hscanned) hordered) ht
  have hsql : Dialect.ansi.render .statement t.root = .ok sql :=
    toOption_eq_some_iff.mp (by decide +kernel)
  obtain ⟨b, hb, htext, -, -, hiff⟩ := hbuilt.integer_items .ansi hsql
  have hkeys : t.root.keys = [sum] := rfl
  refine ⟨hbuilt, hsql, b, hb, htext, hiff.mpr ?_⟩
  rw [hkeys]
  exact List.forall_mem_singleton.mpr rfl

/-- **Integer constants are written as positions**: the groups by a constant are read as groups by
the number of rows, and rows that are ordered by a constant as rows ordered by their first
column. -/
theorem Built.not_integer_items :
    let n : Schema := ⟨[("n", .int64)], by decide⟩
    let number : Int → Expr := fun v => .literal (.int .int64 (Bounded.clamp _ _ (by decide) v))
    let key : Expr := .aliased "k" (number 2)
    let count : Expr := .aliased "c" (.aggregate .countStar none)
    let counts : Schema :=
      ⟨[("k", DataType.int64.nonNull), ("c", DataType.int64.nonNull)], by decide⟩
    let scanned : Plan := .node (.scan "t") ⟨0⟩ n []
    let grouped : Plan := .node (.aggregate [key] [count]) ⟨1⟩ counts [scanned]
    let t : Table := ⟨.node (.order [⟨number 1, true, false⟩]) ⟨2⟩ counts [grouped], .standard⟩
    let sql := "SELECT * FROM (SELECT 2 AS k, count(*) AS c FROM t AS t0 GROUP BY 2) AS t1 " ++
      "ORDER BY 1 DESC NULLS LAST"
    Built ⟨3⟩ t ∧ Dialect.ansi.render .statement t.root = .ok sql ∧
      ∃ b, Dialect.ansi.block t.root = .ok b ∧ b.text .statement = sql ∧ b.keys = ["1", "2"] ∧
        ¬ ∀ item ∈ b.keys, isInteger item = false := by
  intro n number key count counts scanned grouped t sql
  have hscanned : (Table.scan "t" n).Gives ⟨0⟩ ⟨scanned, .standard⟩ ⟨1⟩ := rfl
  have hgrouped : (Table.aggregate ⟨scanned, .standard⟩ [key] [count]).Gives ⟨1⟩
      ⟨grouped, .standard⟩ ⟨2⟩ := rfl
  have ht : (Table.orderBy ⟨grouped, .standard⟩ [⟨number 1, true, false⟩]).Gives ⟨2⟩ t ⟨3⟩ := rfl
  have hsql : Dialect.ansi.render .statement t.root = .ok sql :=
    toOption_eq_some_iff.mp (by decide +kernel)
  have hblock := hsql
  rw [Dialect.render_eq_block] at hblock
  obtain ⟨b, hb, htext⟩ := map_eq_ok_iff.mp hblock
  have hkeys : (Dialect.ansi.block t.root).toOption.map Block.keys = some ["1", "2"] := by
    decide +kernel
  rw [hb] at hkeys
  refine ⟨.orderBy (.aggregate (.scan hscanned) hgrouped) ht, hsql, b, hb, htext,
    Option.some.inj hkeys, fun hnone => ?_⟩
  have hone := hnone "1" (by rw [Option.some.inj hkeys]; exact List.mem_cons_self)
  revert hone
  decide

end Table

end TableQuery
