import TableQuery.Proofs.Result
import TableQuery.Proofs.Sql.Literals
import TableQuery.Sql.Render

/-! # Expressions as pieces of SQL

Names, types and expressions are rendered as neutral pieces of a text. An expression is one if what
it holds can be quoted and no negation stands over the literal of a negative number
(`Expr.isSafe`): the two minus signs would begin a comment. The main statement is
`Dialect.neutral_expr`. -/

namespace TableQuery

open Sql Result

/-! ### Names -/

namespace Sql

theorem NameQuote.char_mem (q : NameQuote) : q.char ∈ quoteChars := by cases q <;> decide

theorem isPlain_of_isBareChar {c : Char} (h : isBareChar c = true) : isPlain c = true :=
  isPlain_of (by decide) h

theorem isBareChar_of_isBareStart {c : Char} (h : isBareStart c = true) : isBareChar c = true := by
  simp only [isBareStart, isBareChar, Char.isAlphanum, Bool.or_eq_true] at h ⊢
  exact h.imp_left .inl

/-- A bare name is a plain text that is not empty. -/
theorem isBareName_spec {n : String} (h : isBareName n = true) : PlainText n ∧ n.toList ≠ [] := by
  rw [isBareName, Bool.and_eq_true] at h
  obtain ⟨h, -⟩ := h
  rw [PlainText, List.all_eq_true]
  cases hn : n.toList with
  | nil =>
    rw [hn] at h
    cases h
  | cons c r =>
    rw [hn] at h
    simp only [Bool.and_eq_true, List.all_eq_true] at h
    have hc := isPlain_of_isBareChar (isBareChar_of_isBareStart h.1)
    exact ⟨List.forall_mem_cons.mpr ⟨hc, fun x hx => isPlain_of_isBareChar (h.2 x hx)⟩,
      List.cons_ne_nil c r⟩

namespace Dialect

variable (d : Dialect)

/-- Whether a name can be quoted: quotes in it that stand behind a backslash come in pairs. -/
def canQuote (name : String) : Bool := pairsQuotes d.quote.char name.toList

variable {d}

theorem neutral_name {n : String} (h : d.canQuote n = true) : Neutral (d.name n) := by
  unfold name
  split
  · have hbare : isBareName n = true := by simp_all
    exact (isBareName_spec hbare).1.neutral
  · exact neutral_quoted d.quote.char_mem h

variable (d) in
theorem takesMinus_name (n : String) : TakesMinus (d.name n) := by
  unfold name
  split
  · have hbare : isBareName n = true := by simp_all
    exact (isBareName_spec hbare).1.takesMinus (isBareName_spec hbare).2
  · exact takesMinus_quoted d.quote.char_mem n

end Dialect

end Sql

/-! ### Types -/

namespace DataType

mutual

/-- Whether the field names of the type can be quoted. -/
def isSafe (d : Dialect) : DataType → Bool
  | .null => true
  | .base _ _ => true
  | .list e _ => isSafe d e
  | .struct fs _ => fieldsSafe d fs
  | .map k v _ => isSafe d k && isSafe d v

def fieldsSafe (d : Dialect) : List (String × DataType) → Bool
  | [] => true
  | (n, t) :: r => d.canQuote n && isSafe d t && fieldsSafe d r

end

end DataType

namespace Sql

theorem neutral_baseTypeName {t : BaseType} {text : String} (h : baseTypeName t = .ok text) :
    Neutral text := by
  cases t with
  | int t | float t => cases t <;> cases h <;> decide
  | decimal p s =>
    cases h
    exact neutral_pair (by decide) (plainText_nat p).neutral (plainText_nat s).neutral
  | timestamp zone => cases zone <;> cases h <;> decide
  | unknown => cases h
  | _ =>
    cases h
    decide

namespace Dialect

variable {d : Dialect}

mutual

/-- The name of a type is a neutral piece. -/
theorem neutral_typeName : ∀ {t : DataType} {text : String}, t.isSafe d = true →
    d.typeName t = .ok text → Neutral text
  | .null, text, _, h => by
    cases h
    decide
  | .base t _, text, _, h => neutral_baseTypeName h
  | .list e _, text, hsafe, h => by
    rw [DataType.isSafe] at hsafe
    rw [typeName] at h
    obtain ⟨element, helement, h⟩ := bind_eq_ok_iff.mp h
    cases h
    exact (neutral_typeName hsafe helement).append (by decide)
  | .struct fs _, text, hsafe, h => by
    rw [DataType.isSafe] at hsafe
    rw [typeName] at h
    obtain ⟨fields, hfields, h⟩ := bind_eq_ok_iff.mp h
    cases h
    exact (neutral_intercalate (by decide) (neutral_fieldTypeNames hsafe hfields)).enclosed 1
      (by decide) (by decide)
  | .map k v _, text, hsafe, h => by
    rw [DataType.isSafe, Bool.and_eq_true] at hsafe
    rw [typeName] at h
    obtain ⟨key, hkey, h⟩ := bind_eq_ok_iff.mp h
    obtain ⟨value, hvalue, h⟩ := bind_eq_ok_iff.mp h
    cases h
    exact neutral_pair (by decide) (neutral_typeName hsafe.1 hkey) (neutral_typeName hsafe.2 hvalue)

theorem neutral_fieldTypeNames : ∀ {fs : List (String × DataType)} {texts : List String},
    DataType.fieldsSafe d fs = true → d.fieldTypeNames fs = .ok texts → ∀ s ∈ texts, Neutral s
  | [], texts, _, h => by
    cases h
    exact fun _ hs => nomatch hs
  | (n, t) :: r, texts, hsafe, h => by
    rw [DataType.fieldsSafe, Bool.and_eq_true, Bool.and_eq_true] at hsafe
    obtain ⟨⟨hn, ht⟩, hr⟩ := hsafe
    rw [fieldTypeNames] at h
    obtain ⟨head, hhead, h⟩ := bind_eq_ok_iff.mp h
    obtain ⟨tail, htail, h⟩ := bind_eq_ok_iff.mp h
    cases h
    exact List.forall_mem_cons.mpr
      ⟨((neutral_name hn).append (by decide)).append (neutral_typeName ht hhead),
        neutral_fieldTypeNames hr htail⟩

end

end Dialect

end Sql

/-! ### Expressions -/

namespace Expr

/-- Whether the text of the expression begins with a minus sign: it is the literal of a negative
number, which may have names. -/
def isSigned (e : Expr) : Bool :=
  match e.unaliased with
  | .literal v => v.isSigned
  | _ => false

mutual

/-- Whether the names and strings in the expression can be quoted, and no negation puts a minus sign
before another. -/
def isSafe (d : Dialect) : Expr → Bool
  | .column _ name => d.canQuote name
  | .literal v => v.isSafe
  | .arith _ a b => isSafe d a && isSafe d b
  | .compare _ a b => isSafe d a && isSafe d b
  | .conj _ es => allSafe d es
  | .unary op e => isSafe d e && !(op = .negate && e.isSigned)
  | .aggregate _ input => inputSafe d input
  | .window _ input ps ks => inputSafe d input && allSafe d ps && keysSafe d ks
  | .aliased _ e => isSafe d e

def inputSafe (d : Dialect) : Option Expr → Bool
  | none => true
  | some e => isSafe d e

def allSafe (d : Dialect) : List Expr → Bool
  | [] => true
  | e :: r => isSafe d e && allSafe d r

def keysSafe (d : Dialect) : List (SortKey Expr) → Bool
  | [] => true
  | ⟨e, _, _⟩ :: r => isSafe d e && keysSafe d r

end

theorem isSafe_unaliased {d : Dialect} : ∀ {e : Expr}, e.isSafe d = true →
    e.unaliased.isSafe d = true
  | .aliased _ e, h => by
    rw [unaliased]
    exact isSafe_unaliased h
  | .column _ _, h | .literal _, h | .arith _ _ _, h | .compare _ _ _, h | .conj _ _, h
  | .unary _ _, h | .aggregate _ _, h | .window _ _ _ _, h => h

end Expr

namespace Sql

theorem plainText_tableAlias (ref : TableRef) : PlainText (tableAlias ref) :=
  PlainText.append (by decide) (plainText_nat _)

theorem neutral_tableAlias (ref : TableRef) : Neutral (tableAlias ref) :=
  (plainText_tableAlias ref).neutral

theorem neutral_directionText {α : Type} (k : SortKey α) : Neutral k.directionText := by
  unfold SortKey.directionText
  cases k.descending <;> cases k.nullsFirst <;> decide

namespace Dialect

variable {d : Dialect}

theorem neutral_qualifiedName (ref : TableRef) {n : String} (h : d.canQuote n = true) :
    Neutral (d.qualifiedName ref n) :=
  ((neutral_tableAlias ref).append (by decide)).append (neutral_name h)

/-- A column is written as a name, under an alias or not. -/
theorem column_cases {scope : NameScope} {c : ColumnRef} {x : String}
    (h : d.column scope c = .ok x) : x = d.name c.name ∨ ∃ ref, x = d.qualifiedName ref c.name := by
  unfold column at h
  split at h
  · cases h
    exact .inl rfl
  · cases h
    exact .inr ⟨_, rfl⟩
  · obtain ⟨ref, -, rfl⟩ := map_eq_ok_iff.mp h
    exact .inr ⟨ref, rfl⟩

theorem neutral_aggregateCall (f : AggregateFunction) {input : Option String}
    (h : ∀ s ∈ input, Neutral s) : Neutral (aggregateCall f input) := by
  unfold aggregateCall
  split
  · decide
  · unfold AggregateFunction.call
    split
    · decide
    · next s =>
      have hs := h s rfl
      split
      · exact hs.enclosed 1 (by decide) (by decide)
      · have hname : Neutral f.name := by cases f <;> decide
        exact ((Reads.append hname (by decide : Reads 0 "(" 1)).then hs).append (by decide)

theorem neutral_windowParts {partitions keys : List String} (hps : ∀ s ∈ partitions, Neutral s)
    (hks : ∀ s ∈ keys, Neutral s) : Neutral (windowParts partitions keys) := by
  have clause {word : String} {pieces : List String} (hword : Neutral word)
      (hpieces : ∀ s ∈ pieces, Neutral s) :
      ∀ s ∈ (if pieces.isEmpty then [] else [word ++ ", ".intercalate pieces]), Neutral s := by
    split
    · exact fun _ hs => nomatch hs
    · exact List.forall_mem_singleton.mpr (hword.append (neutral_intercalate (by decide) hpieces))
  refine neutral_intercalate (by decide) fun s hs => ?_
  exact (List.mem_append.mp hs).elim (clause (by decide) hps s) (clause (by decide) hks s)

/-- Two operands with an operator between them, in parentheses. The blanks tell a minus sign from
that of the operand behind it. -/
theorem neutral_operation {x y symbol : String} (hx : Neutral x)
    (hsymbol : Neutral (" " ++ symbol ++ " ")) (hy : Neutral y) :
    Neutral ("(" ++ x ++ " " ++ symbol ++ " " ++ y ++ ")") := by
  have hinner := ((hx.append hsymbol).append hy).enclosed 1 (by decide : Reads 0 "(" 1)
    (by decide : Reads 1 ")" 0)
  simpa only [String.append_assoc] using hinner

theorem takesMinus_parens (s : String) : TakesMinus ("(" ++ s ++ ")") :=
  ((by decide : TakesMinus "(").append s).append _

theorem takesMinus_aggregateCall (f : AggregateFunction) (input : Option String) :
    TakesMinus (aggregateCall f input) := by
  unfold aggregateCall
  split
  · decide
  · unfold AggregateFunction.call
    split
    · decide
    · split
      · exact ((by decide : TakesMinus "count(DISTINCT ").append _).append _
      · have hname : TakesMinus f.name := by cases f <;> decide
        exact ((hname.append _).append _).append _

/-- A minus sign may stand before the text of an expression that has none itself. -/
theorem takesMinus_expr {scope : NameScope} : ∀ {e : Expr} {x : String}, e.isSigned = false →
    d.expr scope e = .ok x → TakesMinus x
  | .column table n, x, _, h => by
    rw [expr] at h
    rcases column_cases h with rfl | ⟨ref, rfl⟩
    · exact d.takesMinus_name n
    · exact ((((by decide : TakesMinus "t").append _).append _).append _)
  | .literal v, x, hsigned, h => by
    cases h
    exact takesMinus_literal hsigned
  | .arith op a b, x, _, h | .compare op a b, x, _, h => by
    rw [expr] at h
    obtain ⟨y, -, h⟩ := bind_eq_ok_iff.mp h
    obtain ⟨z, -, h⟩ := bind_eq_ok_iff.mp h
    cases h
    simp only [String.append_assoc]
    exact (by decide : TakesMinus "(").append _
  | .conj op es, x, _, h => by
    rw [expr] at h
    obtain ⟨ys, -, h⟩ := bind_eq_ok_iff.mp h
    cases h
    exact takesMinus_parens _
  | .unary op e, x, _, h => by
    rw [expr] at h
    obtain ⟨y, -, h⟩ := bind_eq_ok_iff.mp h
    cases h
    exact takesMinus_parens _
  | .aggregate f input, x, _, h => by
    rw [expr] at h
    obtain ⟨y, -, h⟩ := bind_eq_ok_iff.mp h
    cases h
    exact takesMinus_aggregateCall f y
  | .window f input ps ks, x, _, h => by
    rw [expr] at h
    obtain ⟨partitions, -, h⟩ := bind_eq_ok_iff.mp h
    obtain ⟨keys, -, h⟩ := bind_eq_ok_iff.mp h
    cases f with
    | rowNumber =>
      cases h
      exact ((by decide : TakesMinus "(row_number() OVER (").append _).append _
    | aggregate f =>
      obtain ⟨y, -, h⟩ := bind_eq_ok_iff.mp h
      cases h
      exact (((takesMinus_aggregateCall f y).append _).append _).append _
  | .aliased n e, x, hsigned, h => by
    rw [Expr.isSigned, Expr.unaliased] at hsigned
    rw [expr] at h
    exact takesMinus_expr hsigned h

/-- An operator around its operand. -/
theorem neutral_around {op : UnaryOp} {x : String} (hx : Neutral x)
    (hminus : op = .negate → TakesMinus x) : Neutral (op.around x) := by
  cases op with
  | not => exact Neutral.append (by decide) hx
  | negate => exact hx.minus (hminus rfl)
  | isNull | isNotNull => exact hx.append (by decide)

mutual

/-- **The text of an expression is a neutral piece.** -/
theorem neutral_expr {scope : NameScope} : ∀ {e : Expr} {x : String}, e.isSafe d = true →
    d.expr scope e = .ok x → Neutral x
  | .column table n, x, hsafe, h => by
    rw [Expr.isSafe] at hsafe
    rw [expr] at h
    rcases column_cases h with rfl | ⟨ref, rfl⟩
    · exact neutral_name hsafe
    · exact neutral_qualifiedName ref hsafe
  | .literal v, x, hsafe, h => by
    cases h
    exact neutral_literal hsafe
  | .arith op a b, x, hsafe, h => by
    rw [Expr.isSafe, Bool.and_eq_true] at hsafe
    rw [expr] at h
    obtain ⟨y, hy, h⟩ := bind_eq_ok_iff.mp h
    obtain ⟨z, hz, h⟩ := bind_eq_ok_iff.mp h
    cases h
    have hsymbol : Neutral (" " ++ op.symbol ++ " ") := by cases op <;> decide
    exact neutral_operation (neutral_expr hsafe.1 hy) hsymbol (neutral_expr hsafe.2 hz)
  | .compare op a b, x, hsafe, h => by
    rw [Expr.isSafe, Bool.and_eq_true] at hsafe
    rw [expr] at h
    obtain ⟨y, hy, h⟩ := bind_eq_ok_iff.mp h
    obtain ⟨z, hz, h⟩ := bind_eq_ok_iff.mp h
    cases h
    have hsymbol : Neutral (" " ++ comparison op ++ " ") := by cases op <;> decide
    exact neutral_operation (neutral_expr hsafe.1 hy) hsymbol (neutral_expr hsafe.2 hz)
  | .conj op es, x, hsafe, h => by
    rw [Expr.isSafe] at hsafe
    rw [expr] at h
    obtain ⟨ys, hys, h⟩ := bind_eq_ok_iff.mp h
    cases h
    have hsymbol : Neutral (" " ++ op.symbol ++ " ") := by cases op <;> decide
    exact (neutral_intercalate hsymbol (neutral_exprs hsafe hys)).enclosed 1 (by decide) (by decide)
  | .unary op e, x, hsafe, h => by
    rw [Expr.isSafe, Bool.and_eq_true] at hsafe
    rw [expr] at h
    obtain ⟨y, hy, h⟩ := bind_eq_ok_iff.mp h
    cases h
    have hminus : op = .negate → TakesMinus y :=
      fun hop => takesMinus_expr (by simpa [hop] using hsafe.2) hy
    exact (neutral_around (neutral_expr hsafe.1 hy) hminus).enclosed 1 (by decide) (by decide)
  | .aggregate f input, x, hsafe, h => by
    rw [Expr.isSafe] at hsafe
    rw [expr] at h
    obtain ⟨y, hy, h⟩ := bind_eq_ok_iff.mp h
    cases h
    exact neutral_aggregateCall f (neutral_optionalExpr hsafe hy)
  | .window f input ps ks, x, hsafe, h => by
    rw [Expr.isSafe, Bool.and_eq_true, Bool.and_eq_true] at hsafe
    obtain ⟨⟨hinput, hps⟩, hks⟩ := hsafe
    rw [expr] at h
    obtain ⟨partitions, hpartitions, h⟩ := bind_eq_ok_iff.mp h
    obtain ⟨keys, hkeys, h⟩ := bind_eq_ok_iff.mp h
    have hwindow := neutral_windowParts (neutral_exprs hps hpartitions) (neutral_sortKeys hks hkeys)
    cases f with
    | rowNumber =>
      cases h
      exact hwindow.enclosed 2 (by decide) (by decide)
    | aggregate f =>
      obtain ⟨y, hy, h⟩ := bind_eq_ok_iff.mp h
      cases h
      have hcall := neutral_aggregateCall f (neutral_optionalExpr hinput hy)
      exact ((Reads.append hcall (by decide : Reads 0 " OVER (" 1)).then hwindow).append (by decide)
  | .aliased n e, x, hsafe, h => by
    rw [Expr.isSafe] at hsafe
    rw [expr] at h
    exact neutral_expr hsafe h

theorem neutral_optionalExpr {scope : NameScope} : ∀ {e : Option Expr} {x : Option String},
    Expr.inputSafe d e = true → d.optionalExpr scope e = .ok x → ∀ s ∈ x, Neutral s
  | none, x, _, h => by
    cases h
    exact fun _ hs => nomatch hs
  | some e, x, hsafe, h => by
    rw [Expr.inputSafe] at hsafe
    rw [optionalExpr] at h
    obtain ⟨y, hy, h⟩ := bind_eq_ok_iff.mp h
    cases h
    rintro _ ⟨⟩
    exact neutral_expr hsafe hy

theorem neutral_exprs {scope : NameScope} : ∀ {es : List Expr} {xs : List String},
    Expr.allSafe d es = true → d.exprs scope es = .ok xs → ∀ s ∈ xs, Neutral s
  | [], xs, _, h => by
    cases h
    exact fun _ hs => nomatch hs
  | e :: r, xs, hsafe, h => by
    rw [Expr.allSafe, Bool.and_eq_true] at hsafe
    rw [exprs] at h
    obtain ⟨y, hy, h⟩ := bind_eq_ok_iff.mp h
    obtain ⟨ys, hys, h⟩ := bind_eq_ok_iff.mp h
    cases h
    exact List.forall_mem_cons.mpr ⟨neutral_expr hsafe.1 hy, neutral_exprs hsafe.2 hys⟩

theorem neutral_sortKeys {scope : NameScope} : ∀ {ks : List (SortKey Expr)} {xs : List String},
    Expr.keysSafe d ks = true → d.sortKeys scope ks = .ok xs → ∀ s ∈ xs, Neutral s
  | [], xs, _, h => by
    cases h
    exact fun _ hs => nomatch hs
  | ⟨e, _, _⟩ :: r, xs, hsafe, h => by
    rw [Expr.keysSafe, Bool.and_eq_true] at hsafe
    rw [sortKeys] at h
    obtain ⟨y, hy, h⟩ := bind_eq_ok_iff.mp h
    obtain ⟨ys, hys, h⟩ := bind_eq_ok_iff.mp h
    cases h
    exact List.forall_mem_cons.mpr
      ⟨((neutral_expr hsafe.1 hy).append (by decide)).append (neutral_directionText _),
        neutral_sortKeys hsafe.2 hys⟩

end

end Dialect

end Sql

end TableQuery
