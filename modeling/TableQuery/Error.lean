import TableQuery.DataType.Text
import TableQuery.Expr.Text

/-! # Errors

Errors are causes, grouped by what was being done. The wording, the kind that callers act on and
the extra fields of each cause are given here, and `Error.text` is the one place where an error
becomes text. -/

namespace TableQuery

/-- What callers decide on; the message is for people. -/
inductive ErrorKind where
  | schema | expression | join | unsupported | adapter | config | internal
  deriving DecidableEq

namespace ErrorKind

def text : ErrorKind → String
  | schema => "Schema error"
  | expression => "Expression error"
  | join => "Join error"
  | unsupported => "Unsupported operation"
  | adapter => "Adapter error"
  | config => "Config error"
  | internal => "Internal error"

end ErrorKind

/-- A kind, a message and further fields. -/
structure Report where
  kind : ErrorKind
  message : String
  fields : List (String × String)
  source : Option String

/-! ### Causes -/

/-- Why the text of a type cannot be read. Positions count bytes. -/
inductive TypeTextError where
  | unknownUnit (text : String)
  | trailingInput (rest : String)
  | expectedChar (c : Char) (position : Nat) (text : String)
  | expectedName (position : Nat) (text : String)
  | expectedNumber (found : String)
  | unknownName (name : String)
  | invalidSqlDecimal (text : String)
  | unknownSqlName (text : String)

/-- Why columns and a schema do not go together. -/
inductive SchemaError where
  | duplicateColumn (name : String)
  | columnLength (name : String) (rows expected : Nat)
  | categoryOutOfRange (code categories : Nat)
  | missingColumn (name : String)
  | mixedColumn (name : String) (sofar found : DataType) (row : Nat)
  | columnsDiffer (table : String) (missing extra : List String)

/-- Why an expression has no type, or no place where it stands. -/
inductive TypingError where
  | unknownColumn (name : String) (columns : List String)
  | unresolvedColumn (name : String)
  | operandNotBoolean (op : Connective) (t : DataType) (operand : Expr)
  | notOfNonBoolean (t : DataType)
  | cannotNegate (t : DataType)
  | noArithmetic (op : ArithOp) (left right : DataType)
  | incomparable (op : CompareOp) (left right : DataType)
  | aggregateInput (f : AggregateFunction) (t : DataType)
  | nestedAggregate (f : AggregateFunction) (input : Option Expr)
  | notWindowable (e : Expr)
  | notAnAggregate (e : Expr)
  | notScalar (e : Expr)

/-- A value that an exact computation has no room for. -/
inductive Quantity where
  | decimal | interval | timestampDifference

/-- Why a value cannot be computed. -/
inductive EvalError where
  | notBool (v : Scalar)
  | notInteger (v : Scalar)
  | notString (v : Scalar)
  | outOfRange64 (signed : Bool) (v : Int)
  | noResult (op : ArithOp) (left right : Scalar) (t : DataType)
  | noIntervalResult (op : ArithOp) (left right : Scalar)
  | noTemporalResult (op : ArithOp) (left right : Scalar)
  | overflow (op : ArithOp) (left right : Scalar)
  | integerOutOfRange (v : Int) (t : DataType)
  | tooLarge (what : Quantity)
  | cannotCast (v : Scalar) (t : DataType)
  | mixedIntervals (iv : Interval) (target : IntervalUnit)
  | shiftOutOfRange (t : Timestamp) (iv : Interval)
  | operandNotBoolean (op : Connective) (v : Scalar)
  | negateOverflow (v : Scalar)
  | cannotNegate (v : Scalar)

/-- Why a step of a table expression is refused. -/
inductive TableError where
  | filterNotBoolean (t : DataType) (predicate : Expr)
  | filterAggregates (predicate : Expr)
  | emptyProjection
  | aggregateProjected (e : Expr)
  | groupKeyAggregates (key : Expr)
  | metricNotAggregate (metric : Expr)
  | emptyAggregation
  | sortKeyAggregates (key : Expr)
  | duplicateOutput (name : String)

/-- Why two relations cannot be joined. -/
inductive JoinError where
  | keyNotFound (left right : String)
  | keyNotInLeft (name : String) (columns : List String)
  | keyNotInRight (name : String) (columns : List String)
  | ambiguousSelf (name : String)
  | ambiguous (name : String)
  | columnNotFound (name : String)
  | notBoolean (t : DataType)
  | aggregates
  | incomparableKeys (left : String) (leftType : DataType) (right : String) (rightType : DataType)
  | duplicateOutput (name leftSuffix rightSuffix : String)
  | missingColumn (name side : String)

/-- Why rows and columns do not form a batch. -/
inductive BatchError where
  | rowOutOfBounds (index rows : Nat)
  | columnLengths (expected found : Nat)
  | rowWidth (expected found : Nat)
  | columnCounts (expected found : Nat)

/-- Why a plan cannot be lowered or run. -/
inductive PlanError where
  | oneChild (operator : String) (children : Nat)
  | oneSource (children : Nat)
  | twoChildren (children : Option Nat)
  | oneInput (operator : String)
  | noInputs (inputs : Nat)
  | twoInputs
  | noSqlType
  | noFullJoin

/-- Why a result is not what was asked for. -/
inductive ResultError where
  | notSingleValue (rows columns : Nat)
  | columnCount (expected found : Nat)
  | wantedRows
  | wantedScalar

/-- Why the table store refuses. -/
inductive StoreError where
  | missingTable (name : String)
  | tableExists (name : String)
  | missingColumn (table column : String)
  | columnCount (table : String) (expected found : Nat)
  | nullInColumn (table column : String)
  | unsupportedQuery (what : String)
  | malformedQuery

/-- Why a setting cannot be read or changed. -/
inductive ConfigError where
  | unknownSetting (name : String)
  | emptyJoinSuffix

/-- Everything that can go wrong. -/
inductive Error where
  | typeText (e : TypeTextError)
  | schema (e : SchemaError)
  | typing (e : TypingError)
  | eval (e : EvalError)
  | table (e : TableError)
  | join (e : JoinError)
  | batch (e : BatchError)
  | plan (e : PlanError)
  | result (e : ResultError)
  | store (e : StoreError)
  | config (e : ConfigError)

/-! ### Wording -/

/-- A list of names in an error field. -/
def nameList (names : List String) : String := ", ".intercalate names

/-- A text in single quotes, as error messages show it. -/
def inQuotes (s : String) : String := "'" ++ s ++ "'"

/-- An operation between two operands, as error messages show it. -/
def between (left op right : String) : String := left ++ " " ++ op ++ " " ++ right

namespace TypeTextError

def message : TypeTextError → String
  | unknownUnit s => "Unknown interval unit: " ++ inQuotes s
  | trailingInput s => "Unexpected trailing input in type string: " ++ inQuotes s
  | expectedChar c i s =>
    "Expected " ++ inQuotes (toString c) ++ " at position " ++ toString i ++ " in type string " ++
      inQuotes s
  | expectedName i s =>
    "Expected identifier at position " ++ toString i ++ " in type string " ++ inQuotes s
  | expectedNumber s => "Expected number in type string, got " ++ inQuotes s
  | unknownName s => "Unknown type name: " ++ inQuotes s
  | invalidSqlDecimal s => "Invalid decimal type: " ++ inQuotes s
  | unknownSqlName s => "Unknown SQL type name: " ++ inQuotes s

end TypeTextError

namespace SchemaError

def report : SchemaError → Report
  | duplicateColumn n => ⟨.schema, "Duplicate column name " ++ inQuotes n ++ " in schema", [], none⟩
  | columnLength n rows expected =>
    ⟨.schema, "Column " ++ inQuotes n ++ " has " ++ toString rows ++ " rows, expected " ++
      toString expected, [], none⟩
  | categoryOutOfRange code n =>
    ⟨.schema, "Categorical code " ++ toString code ++ " out of range for " ++ toString n ++
      " categories", [], none⟩
  | missingColumn n => ⟨.schema, "Missing column " ++ inQuotes n ++ " in source data", [], none⟩
  | mixedColumn n a b row =>
    ⟨.schema, "Cannot infer a single type for column " ++ inQuotes n ++ ", found " ++ a.text ++
      " and " ++ b.text, [("row", toString row)], none⟩
  | columnsDiffer t missing extra =>
    ⟨.schema, "Columns of data do not match table " ++ inQuotes t,
      [("missing", nameList missing), ("extra", nameList extra)], none⟩

end SchemaError

namespace TypingError

def report : TypingError → Report
  | unknownColumn n columns =>
    ⟨.expression, "Column " ++ inQuotes n ++ " not found in schema",
      [("columns", nameList columns)], none⟩
  | unresolvedColumn n => ⟨.expression, "Missing column for reference: " ++ n, [], none⟩
  | operandNotBoolean op t e =>
    ⟨.expression, op.symbol ++ " requires boolean inputs, got " ++ t.text ++ " for " ++
      inQuotes e.text, [], none⟩
  | notOfNonBoolean t => ⟨.expression, "NOT requires a boolean input, got " ++ t.text, [], none⟩
  | cannotNegate t => ⟨.expression, "Cannot negate " ++ t.text, [], none⟩
  | noArithmetic op a b =>
    ⟨.expression, "No arithmetic rule for " ++ between a.text op.symbol b.text, [], none⟩
  | incomparable op a b =>
    ⟨.expression, "Cannot compare " ++ between a.text op.symbol b.text, [], none⟩
  | aggregateInput f t =>
    ⟨.expression, "Aggregate " ++ inQuotes f.name ++ " not defined for input type " ++ t.text, [],
      none⟩
  | nestedAggregate f input =>
    ⟨.expression, "Aggregates cannot be nested: " ++ inQuotes (Expr.aggregate f input).text, [],
      none⟩
  | notWindowable e =>
    ⟨.expression, "Only aggregates and row_number can be windowed, got " ++ inQuotes e.text, [],
      none⟩
  | notAnAggregate e => ⟨.expression, "Expected an aggregate, got " ++ inQuotes e.text, [], none⟩
  | notScalar e =>
    ⟨.internal, "Expression should have been extracted before planning: " ++ e.text, [], none⟩

end TypingError

namespace Quantity

def text : Quantity → String
  | decimal => "decimal within range"
  | interval => "interval within range"
  | timestampDifference => "timestamp difference within range"

end Quantity

namespace EvalError

def report : EvalError → Report
  | notBool v => ⟨.internal, "Not a bool: " ++ v.text, [], none⟩
  | notInteger v => ⟨.internal, "Not an integer: " ++ v.text, [], none⟩
  | notString v => ⟨.internal, "Not a string: " ++ v.text, [], none⟩
  | outOfRange64 signed v =>
    ⟨.internal, "Integer out of range for " ++ (if signed then "i64" else "u64") ++ ": " ++
      toString v, [], none⟩
  | noResult op a b t =>
    ⟨.expression, "Cannot evaluate " ++ between a.text op.symbol b.text ++ " as " ++ t.text, [],
      none⟩
  | noIntervalResult op a b =>
    ⟨.expression, "Cannot evaluate " ++ between a.text op.symbol b.text ++ " as an interval", [],
      none⟩
  | noTemporalResult op a b =>
    ⟨.expression, "Cannot evaluate " ++ between a.text op.symbol b.text, [], none⟩
  | overflow op a b =>
    ⟨.expression, "Overflow evaluating " ++ between a.text op.symbol b.text, [], none⟩
  | integerOutOfRange v t =>
    ⟨.expression, "Integer " ++ toString v ++ " out of range for " ++ t.text, [], none⟩
  | tooLarge q => ⟨.internal, "Missing required value: " ++ q.text, [], none⟩
  | cannotCast v t => ⟨.expression, "Cannot cast " ++ v.text ++ " to " ++ t.text, [], none⟩
  | mixedIntervals iv u =>
    ⟨.expression, "Cannot combine calendar and fixed length intervals: " ++ iv.text ++ " to " ++
      u.short, [], none⟩
  | shiftOutOfRange t iv =>
    ⟨.expression, "Datetime out of range shifting " ++ t.text ++ " by " ++ iv.text, [], none⟩
  | operandNotBoolean op v =>
    ⟨.expression, op.symbol ++ " expects boolean inputs, got " ++ v.text, [], none⟩
  | negateOverflow v => ⟨.expression, "Overflow negating " ++ v.text, [], none⟩
  | cannotNegate v => ⟨.expression, "Cannot negate " ++ v.text, [], none⟩

end EvalError

namespace TableError

def message : TableError → String
  | filterNotBoolean t e =>
    "Filter predicate must be boolean, got " ++ t.text ++ " for " ++ inQuotes e.text
  | filterAggregates e =>
    "Filter predicate cannot contain aggregates or windows: " ++ inQuotes e.text
  | emptyProjection => "Projection requires at least one expression"
  | aggregateProjected e =>
    "Aggregate " ++ inQuotes e.text ++ " must be computed with an aggregation"
  | groupKeyAggregates e => "Group key cannot contain aggregates or windows: " ++ inQuotes e.text
  | metricNotAggregate e => "Metric must be an aggregate, got " ++ inQuotes e.text
  | emptyAggregation => "Aggregation requires at least one key or metric"
  | sortKeyAggregates e => "Sort key cannot contain aggregates or windows: " ++ inQuotes e.text
  | duplicateOutput n => "Duplicate output column name " ++ inQuotes n

end TableError

namespace JoinError

def report : JoinError → Report
  | keyNotFound l r =>
    ⟨.join, "Join key " ++ inQuotes l ++ " = " ++ inQuotes r ++ " not found on either side", [],
      none⟩
  | keyNotInLeft n columns =>
    ⟨.join, "Join key " ++ inQuotes n ++ " not found in left input",
      [("columns", nameList columns)], none⟩
  | keyNotInRight n columns =>
    ⟨.join, "Join key " ++ inQuotes n ++ " not found in right input",
      [("columns", nameList columns)], none⟩
  | ambiguousSelf n =>
    ⟨.join, "Column " ++ inQuotes n ++ " is ambiguous in a self join, reference it through a view",
      [], none⟩
  | ambiguous n =>
    ⟨.join, "Column " ++ inQuotes n ++ " is ambiguous, it exists on both sides of the join", [],
      none⟩
  | columnNotFound n =>
    ⟨.join, "Column " ++ inQuotes n ++ " not found on either side of the join", [], none⟩
  | notBoolean t => ⟨.join, "Join predicate must be boolean, got " ++ t.text, [], none⟩
  | aggregates => ⟨.join, "Join predicate cannot contain aggregates or windows", [], none⟩
  | incomparableKeys l lt r rt =>
    ⟨.join, "Join keys have incomparable types: " ++ l ++ " (" ++ lt.text ++ ") and " ++ r ++
      " (" ++ rt.text ++ ")", [], none⟩
  | duplicateOutput n l r =>
    ⟨.join, "Join produces duplicate output column " ++ inQuotes n,
      [("left_suffix", inQuotes l), ("right_suffix", inQuotes r)], none⟩
  | missingColumn n side =>
    ⟨.join, "Missing join column " ++ inQuotes n ++ " on " ++ side ++ " side", [], none⟩

end JoinError

namespace BatchError

def report : BatchError → Report
  | rowOutOfBounds i n =>
    ⟨.internal, "Row index " ++ toString i ++ " out of bounds for array of length " ++ toString n,
      [], none⟩
  | columnLengths expected got =>
    ⟨.internal, "Expected all arrays in a batch to be the same length",
      [("expected", toString expected), ("got", toString got)], none⟩
  | rowWidth expected got =>
    ⟨.internal, "Row width does not match number of types",
      [("expected", toString expected), ("got", toString got)], none⟩
  | columnCounts expected got =>
    ⟨.internal, "Cannot append batches with different column counts",
      [("expected", toString expected), ("got", toString got)], none⟩

end BatchError

namespace PlanError

def report : PlanError → Report
  | oneChild op n =>
    ⟨.internal, op ++ " expects exactly one child", [("children", toString n)], none⟩
  | oneSource n => ⟨.internal, "Expected exactly one child", [("children", toString n)], none⟩
  | twoChildren n =>
    ⟨.internal, "Join expects exactly two children",
      n.toList.map fun n => ("children", toString n), none⟩
  | oneInput op => ⟨.internal, op ++ " expects exactly one input", [], none⟩
  | noInputs n => ⟨.internal, "Values expects no inputs", [("inputs", toString n)], none⟩
  | twoInputs => ⟨.internal, "HashJoin expects exactly two inputs", [], none⟩
  | noSqlType =>
    ⟨.unsupported, "Cannot write a SQL type for a column with unknown type", [], none⟩
  | noFullJoin =>
    ⟨.unsupported, "Full outer joins are not supported by this adapter", [], none⟩

end PlanError

namespace ResultError

def report : ResultError → Report
  | notSingleValue rows columns =>
    ⟨.internal, "Scalar query did not produce a single value",
      [("rows", toString rows), ("columns", toString columns)], none⟩
  | columnCount expected got =>
    ⟨.internal, "Adapter returned an unexpected number of columns",
      [("expected", toString expected), ("got", toString got)], none⟩
  | wantedRows => ⟨.internal, "Expected rows, got a scalar result", [], none⟩
  | wantedScalar => ⟨.internal, "Expected a scalar, got rows", [], none⟩

end ResultError

namespace StoreError

def message : StoreError → String
  | missingTable t => "Missing table: " ++ t
  | tableExists t => "Table already exists: " ++ t
  | missingColumn t c => "Missing column " ++ inQuotes c ++ " in table " ++ inQuotes t
  | columnCount t expected got =>
    "Expected " ++ toString expected ++ " columns for table " ++ inQuotes t ++ ", got " ++
      toString got
  | nullInColumn t c =>
    "Null value in non-nullable column " ++ inQuotes c ++ " of table " ++ inQuotes t
  | unsupportedQuery what => "Unsupported query: " ++ what
  | malformedQuery => "<parse error>"

/-- The store's errors are the source of an error of its adapter. -/
def report (e : StoreError) : Report := ⟨.adapter, "Memory adapter error", [], some e.message⟩

end StoreError

namespace ConfigError

def message : ConfigError → String
  | unknownSetting n => "Missing setting for " ++ inQuotes n
  | emptyJoinSuffix => "Join suffix cannot be empty"

end ConfigError

namespace Error

/-- The kind, message, fields and source of an error. -/
def report : Error → Report
  | typeText e => ⟨.schema, e.message, [], none⟩
  | schema e => e.report
  | typing e => e.report
  | eval e => e.report
  | table e => ⟨.expression, e.message, [], none⟩
  | join e => e.report
  | batch e => e.report
  | plan e => e.report
  | result e => e.report
  | store e => e.report
  | config e => ⟨.config, e.message, [], none⟩

def kind (e : Error) : ErrorKind := e.report.kind

/-- The kind and message, a line for each field, and the source on the last line. -/
def text (e : Error) : String :=
  let r := e.report
  r.kind.text ++ ": " ++ r.message ++
    String.join (r.fields.map fun (key, value) => "\n  " ++ key ++ ": " ++ value) ++
    (match r.source with
    | some s => "\nError source: " ++ s
    | none => "")

end Error

/-- A result or the reason why there is none. -/
abbrev Result (α : Type) := Except Error α

end TableQuery
