import TableQuery.Proofs.Result
import TableQuery.Sql.Selection

/-! # What selections select

A SELECT computes at least one item, so a selection that does not stand for all columns has at least
one (`Selection.columns_ne_nil`). A parser is followed by what it gives where it succeeds
(`Parser.Gives`): a sequence of parsers gives what the last one does, and a loop what each of its
steps does. -/

namespace TableQuery.Sql

open Result

/-- A body that is a SELECT has an item. -/
def QueryBody.HasItem : QueryBody → Prop
  | .select s => s.items ≠ []
  | .other _ => True

/-- A statement that is a SELECT has an item. -/
def Statement.HasItem : Statement → Prop
  | .query q => q.body.HasItem
  | .explanation _ | .other _ => True

namespace Parser

variable {α β : Type}

/-- **What a parser gives**: its results, wherever it succeeds, have a property. -/
def Gives (p : Parser α) (P : α → Prop) : Prop :=
  ∀ (i : Input) (a : α) (rest : Input), p.run i = .ok (a, rest) → P a

variable {p : Parser α} {P : α → Prop} {Q : β → Prop}

theorem gives_pure {a : α} (h : P a) : Gives (pure a) P := by
  intro i b rest hb
  cases hb
  exact h

theorem gives_throw (e : ParseFailure) : Gives (throw e : Parser α) P := fun _ _ _ h => nomatch h

/-- A step that gives something, and one that makes use of it. -/
theorem Gives.bind {f : α → Parser β} (hp : p.Gives P) (hf : ∀ a, P a → (f a).Gives Q) :
    (p >>= f).Gives Q := by
  intro i b rest h
  obtain ⟨⟨a, middle⟩, ha, h⟩ := bind_eq_ok_iff.mp h
  exact hf a (hp i a middle ha) middle b rest h

/-- A step of which it does not matter what it gives. -/
theorem gives_after {f : α → Parser β} (hf : ∀ a, (f a).Gives Q) : (p >>= f).Gives Q :=
  Gives.bind (P := fun _ => True) (fun _ _ _ _ => trivial) fun a _ => hf a

theorem gives_ite {c : Prop} [Decidable c] {q : Parser α} (hp : p.Gives P) (hq : q.Gives P) :
    (if c then p else q).Gives P := by
  split
  · exact hp
  · exact hq

/-- What all of the alternatives give. -/
theorem gives_firstOf {otherwise : Parser α} (hotherwise : otherwise.Gives P) :
    ∀ {alternatives : List (String × Parser α)}, (∀ q ∈ alternatives, q.2.Gives P) →
      (firstOf otherwise alternatives).Gives P
  | [], _ => hotherwise
  | (ws, p) :: r, h => by
    obtain ⟨hp, hr⟩ := List.forall_mem_cons.mp h
    rw [firstOf]
    exact gives_after fun _ => gives_ite hp (gives_firstOf hotherwise hr)

theorem gives_sized {p : Nat → Parser α} (h : ∀ fuel, (p fuel).Gives P) : (sized p).Gives P :=
  gives_after fun _ => h _

/-! ### Items -/

theorem gives_commaSeparatedFrom (p : Parser α) :
    ∀ fuel, (commaSeparatedFrom p fuel).Gives (· ≠ [])
  | 0 => gives_throw _
  | fuel + 1 => by
    rw [commaSeparatedFrom]
    exact gives_after fun a => gives_after fun _ => gives_ite
      (gives_after fun _ => gives_pure (List.cons_ne_nil a _)) (gives_pure (List.cons_ne_nil a []))

theorem gives_commaSeparated (p : Parser α) : (commaSeparated p).Gives (· ≠ []) :=
  gives_sized (gives_commaSeparatedFrom p)

variable (g : Grammar)

/-- A SELECT has an item. -/
theorem gives_select : (select g).Gives (·.items ≠ []) := by
  unfold select
  refine gives_after fun distinct => gives_after fun top => ?_
  refine (gives_commaSeparated (selectItem g)).bind fun list hlist => ?_
  refine gives_after fun into => gives_after fun from? => ?_
  split
  all_goals
    refine gives_after fun sources => gives_after fun views => gives_after fun parts => ?_
    refine gives_after fun keyword => gives_after fun ending => gives_after fun links => ?_
    exact gives_pure hlist

/-! ### Queries -/

theorem gives_simpleBody : (simpleBody g).Gives QueryBody.HasItem := by
  unfold simpleBody
  refine gives_after fun _ => gives_ite ((gives_select g).bind fun s hs => gives_pure hs) ?_
  refine gives_after fun _ => gives_ite ?_ ?_
  · exact gives_after fun _ => gives_after fun _ => gives_pure trivial
  refine gives_after fun _ => gives_ite (gives_after fun _ => gives_pure trivial) ?_
  exact gives_after fun _ => gives_ite (gives_after fun _ => gives_pure trivial) (gives_throw _)

/-- Behind a body there is the body, or set operators that make text of it. -/
theorem gives_setOperationsFrom : ∀ (fuel strength : Nat) {left : QueryBody}, left.HasItem →
    (setOperationsFrom g fuel strength left).Gives QueryBody.HasItem
  | 0, _, _, _ => gives_throw _
  | fuel + 1, strength, left, h => by
    rw [setOperationsFrom]
    refine gives_after fun keyword => ?_
    split
    · exact gives_pure h
    · refine gives_ite (gives_pure h) ?_
      refine gives_after fun _ => gives_after fun _ => gives_after fun _ => gives_after fun _ => ?_
      exact gives_setOperationsFrom fuel strength trivial

theorem gives_queryBody : (queryBody g).Gives QueryBody.HasItem :=
  (gives_simpleBody g).bind fun _ h => gives_sized fun fuel => gives_setOperationsFrom g fuel 0 h

theorem gives_queryIn : (queryIn g).Gives (·.body.HasItem) := by
  unfold queryIn
  refine gives_after fun names => gives_firstOf ?_ ?_
  · refine (gives_queryBody g).bind fun body hbody => ?_
    exact gives_after fun _ => gives_after fun _ => gives_after fun _ => gives_pure hbody
  · rintro q hq
    rcases List.mem_cons.mp hq with rfl | hq
    · exact gives_after fun _ => gives_pure trivial
    · rw [List.mem_singleton.mp hq]
      exact gives_after fun _ => gives_pure trivial

theorem gives_query : ∀ depth, (grammar depth).query.Gives (·.body.HasItem)
  | 0 => gives_throw _
  | depth + 1 => gives_queryIn (grammar depth)

/-! ### Statements -/

theorem gives_statement : ∀ depth, (grammar depth).statement.Gives Statement.HasItem
  | 0 => gives_throw _
  | depth + 1 => by
    show (statementIn (grammar depth)).Gives Statement.HasItem
    unfold statementIn
    refine gives_after fun keyword => gives_after fun next => ?_
    refine gives_ite ((gives_query depth).bind fun q hq => gives_pure hq) ?_
    refine gives_ite (gives_after fun _ => gives_after fun _ => gives_pure trivial) ?_
    refine gives_firstOf (gives_throw _) ?_
    rintro q hq
    obtain ⟨form, -, rfl⟩ := List.mem_map.mp hq
    exact gives_after fun _ => gives_pure trivial

theorem gives_statementsFrom {statement : Parser Statement} {P : Statement → Prop}
    (h : statement.Gives P) : ∀ (fuel : Nat) (separated : Bool),
      (statementsFrom statement fuel separated).Gives (∀ s ∈ ·, P s)
  | 0, _ => gives_throw _
  | fuel + 1, separated => by
    rw [statementsFrom]
    refine gives_after fun _ => gives_ite (gives_statementsFrom h fuel true) ?_
    refine gives_after fun _ => gives_ite (gives_pure fun _ hs => nomatch hs) ?_
    refine gives_ite ?_ ?_
    · refine h.bind fun s hs => (gives_statementsFrom h fuel false).bind fun r hr => ?_
      exact gives_pure (List.forall_mem_cons.mpr ⟨hs, hr⟩)
    · exact gives_after fun _ => gives_ite (gives_pure fun _ hs => nomatch hs) (gives_throw _)

theorem gives_statements {statement : Parser Statement} {P : Statement → Prop}
    (h : statement.Gives P) : (statements statement).Gives (∀ s ∈ ·, P s) :=
  gives_after fun _ => gives_statementsFrom h _ _

end Parser

theorem hasItem_of_parseStatements {sql : String} {statements : List Statement}
    (h : parseStatements sql = some statements) : ∀ s ∈ statements, s.HasItem := by
  obtain ⟨written, -, h⟩ := Option.bind_eq_some_iff.mp h
  dsimp only at h
  split at h
  case h_1 found rest hrun =>
    cases h
    exact Parser.gives_statements (Parser.gives_statement Parser.depthLimit) _ _ _ hrun
  case h_2 => cases h

/-! ### Selections -/

namespace Selection

theorem columns_ne_nil_of_items {items : List SelectItem} {columns : Option (List SelectedColumn)}
    (hitems : items ≠ []) (h : columnsOfItems items = .ok columns) : columns ≠ some [] := by
  unfold columnsOfItems at h
  split at h
  · cases h
    exact fun h => nomatch h
  · obtain ⟨cs, hcs, h⟩ := bind_eq_ok_iff.mp h
    cases h
    rintro ⟨⟩
    exact hitems (List.forall₂_nil_right_iff.mp (forall₂_of_mapM hcs))

theorem body_of_selectOfQuery {q : SelectQuery} {s : Select} (h : selectOfQuery q = .ok s) :
    q.body = .select s := by
  unfold selectOfQuery at h
  split at h
  · cases h
  · split at h
    · cases h
    · split at h <;> cases h
      assumption

/-- **A selection selects something**: if its columns are listed, there is one at least. -/
theorem columns_ne_nil {sql : String} {q : Selection} (h : parse sql = .ok q) :
    q.columns ≠ some [] := by
  unfold parse at h
  split at h
  case h_2 query hquery =>
    have hitem := hasItem_of_parseStatements hquery (.query query) List.mem_cons_self
    obtain ⟨s, hs, h⟩ := bind_eq_ok_iff.mp h
    obtain ⟨-, -, h⟩ := bind_eq_ok_iff.mp h
    obtain ⟨table, -, h⟩ := bind_eq_ok_iff.mp h
    obtain ⟨columns, hcolumns, h⟩ := bind_eq_ok_iff.mp h
    obtain ⟨limit, -, h⟩ := bind_eq_ok_iff.mp h
    obtain ⟨offset, -, h⟩ := bind_eq_ok_iff.mp h
    cases h
    rw [Statement.HasItem, body_of_selectOfQuery hs] at hitem
    exact columns_ne_nil_of_items hitem hcolumns
  all_goals cases h

end Selection

end TableQuery.Sql
