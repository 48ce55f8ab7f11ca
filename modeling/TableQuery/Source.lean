import TableQuery.Schema
import TableQuery.Batch
import TableQuery.Scalar.Infer

/-! # Client data

The columns that callers hand in: arrays of one native type with gaps, texts stored by their place
in a list of categories, or values of any kind whose type is inferred. A `Source` is a list of
named columns of one length. Its schema is inferred column by column, and its rows are matched to a
schema by name. -/

namespace TableQuery

/-- The values of one native column. A gap stands for null. -/
inductive NativeArray where
  | boolean (values : List (Option Bool))
  | int (t : IntType) (values : List (Option t.Value))
  | float (t : FloatType) (values : List (Option t.Value))
  | utf8 (values : List (Option String))
  | binary (values : List (Option (List UInt8)))
  | date (values : List (Option Date))
  | time (values : List (Option TimeOfDay))
  /-- Texts given by their places in a list of categories. -/
  | categorical (categories : List String) (codes : List (Option Nat))
  | timestamp (zone : Option String) (values : List (Option Timestamp))
  | duration (unit : IntervalUnit) (values : List (Option Int64Value))
  /-- Values of any kind. -/
  | object (values : List Scalar)

namespace NativeArray

/-- A value or the null that a gap stands for. -/
def orNull {α : Type} (f : α → Scalar) : Option α → Scalar
  | some v => f v
  | none => .null

/-- The text of a category. -/
def category (categories : List String) : Option Nat → Result Scalar
  | none => .ok .null
  | some code =>
    match categories[code]? with
    | some s => .ok (.utf8 s)
    | none => .error (.schema (.categoryOutOfRange code categories.length))

/-- The column's values; the code of a category may be out of range. -/
def scalars : NativeArray → Result (List Scalar)
  | boolean vs => .ok (vs.map (orNull .boolean))
  | int t vs => .ok (vs.map (orNull (.int t)))
  | float t vs => .ok (vs.map (orNull (.float t)))
  | utf8 vs => .ok (vs.map (orNull .utf8))
  | binary vs => .ok (vs.map (orNull .binary))
  | date vs => .ok (vs.map (orNull .date))
  | time vs => .ok (vs.map (orNull .time))
  | categorical categories codes => codes.mapM (category categories)
  | timestamp zone vs => .ok (vs.map (orNull (.timestamp · zone)))
  | duration unit vs => .ok (vs.map (orNull fun n => .interval ⟨n, unit⟩))
  | object vs => .ok vs

def size : NativeArray → Nat
  | boolean vs => vs.length
  | int _ vs => vs.length
  | float _ vs => vs.length
  | utf8 vs => vs.length
  | binary vs => vs.length
  | date vs => vs.length
  | time vs => vs.length
  | categorical _ codes => codes.length
  | timestamp _ vs => vs.length
  | duration _ vs => vs.length
  | object vs => vs.length

def nullCount : NativeArray → Nat
  | boolean vs => vs.countP Option.isNone
  | int _ vs => vs.countP Option.isNone
  | float _ vs => vs.countP Option.isNone
  | utf8 vs => vs.countP Option.isNone
  | binary vs => vs.countP Option.isNone
  | date vs => vs.countP Option.isNone
  | time vs => vs.countP Option.isNone
  | categorical _ codes => codes.countP Option.isNone
  | timestamp _ vs => vs.countP Option.isNone
  | duration _ vs => vs.countP Option.isNone
  | object vs => vs.countP Scalar.isNull

/-- The first `n` slots. -/
def take (n : Nat) : NativeArray → NativeArray
  | boolean vs => boolean (vs.take n)
  | int t vs => int t (vs.take n)
  | float t vs => float t (vs.take n)
  | utf8 vs => utf8 (vs.take n)
  | binary vs => binary (vs.take n)
  | date vs => date (vs.take n)
  | time vs => time (vs.take n)
  | categorical categories codes => categorical categories (codes.take n)
  | timestamp zone vs => timestamp zone (vs.take n)
  | duration unit vs => duration unit (vs.take n)
  | object vs => object (vs.take n)

/-- The number of codes that there are: a code has 32 bits. -/
def codeCount : Nat := 4294967296

/-- The encoding of one more text: its place among the categories, which grow if it is new. A code
keeps the low bits of the place. -/
def encodeStep (acc : List String × List (Option Nat)) (s : String) :
    List String × List (Option Nat) :=
  match acc.1.idxOf? s with
  | some place => (acc.1, acc.2 ++ [some (place % codeCount)])
  | none => (acc.1 ++ [s], acc.2 ++ [some (acc.1.length % codeCount)])

/-- Texts encoded by categories in order of first occurrence. -/
def encode (values : List String) : NativeArray :=
  let (categories, codes) := values.foldl encodeStep ([], [])
  categorical categories codes

end NativeArray

/-- A named native column. -/
structure NativeColumn where
  name : String
  array : NativeArray
  /-- Whether the column was declared to hold no nulls. -/
  nonNull : Bool

namespace NativeColumn

/-! ### Columns declared by their content -/

/-- Whole numbers without gaps. -/
def ofInt64s (name : String) (values : List Int64Value) : NativeColumn :=
  ⟨name, .int .int64 (values.map some), true⟩

/-- Texts with gaps. -/
def ofTexts (name : String) (values : List (Option String)) : NativeColumn :=
  ⟨name, .utf8 values, false⟩

/-- Texts encoded by categories. -/
def ofCategories (name : String) (values : List String) : NativeColumn :=
  ⟨name, .encode values, false⟩

/-- Timestamps of a zone, declared without nulls when there are no gaps. -/
def ofTimestamps (name zone : String) (values : List (Option Timestamp)) : NativeColumn :=
  ⟨name, .timestamp (some zone) values, values.all Option.isSome⟩

/-- Durations without gaps. -/
def ofDurations (name : String) (unit : IntervalUnit) (values : List Int64Value) : NativeColumn :=
  ⟨name, .duration unit (values.map some), true⟩

/-- Values of any kind. -/
def ofScalars (name : String) (values : List Scalar) : NativeColumn :=
  ⟨name, .object values, false⟩

/-! ### Inference -/

/-- The type so far joined with the type of one more value of the column, at a row. -/
def inferStep (name : String) (sofar : DataType) (entry : Scalar × Nat) : Result DataType :=
  let found := entry.1.dataType
  match sofar.supertype? found with
  | some t => .ok t
  | none => .error (.schema (.mixedColumn name sofar found entry.2))

/-- The type of the values, before the column's nullability is taken into account. -/
def inferValues (c : NativeColumn) : Result DataType :=
  match c.array with
  | .boolean _ => .ok .boolean
  | .int t _ => .ok (.int t)
  | .float t _ => .ok (.float t)
  | .utf8 _ | .categorical _ _ => .ok .utf8
  | .binary _ => .ok .binary
  | .date _ => .ok .date
  | .time _ => .ok .time
  | .timestamp zone _ => .ok (.timestamp zone)
  | .duration unit _ => .ok (.interval unit)
  | .object values => values.zipIdx.foldlM (inferStep c.name) .null

/-- The type of the column. It is nullable unless the column was declared without nulls and has
none. -/
def inferType (c : NativeColumn) : Result DataType :=
  c.inferValues.map (·.withNullable (!c.nonNull || 0 < c.array.nullCount))

end NativeColumn

/-- Named columns of one length. -/
structure Source where
  columns : List NativeColumn

namespace Source

/-- The source of these columns, which must have one length. -/
def ofColumns (columns : List NativeColumn) : Result Source :=
  match columns with
  | [] => .ok ⟨[]⟩
  | first :: _ =>
    match columns.find? (·.array.size ≠ first.array.size) with
    | some c => .error (.schema (.columnLength c.name c.array.size first.array.size))
    | none => .ok ⟨columns⟩

variable (s : Source)

def numRows : Nat :=
  match s.columns with
  | [] => 0
  | c :: _ => c.array.size

def names : List String := s.columns.map NativeColumn.name

/-- The first column of a name. -/
def column? (name : String) : Option NativeColumn := s.columns.find? (·.name = name)

/-- The types of the columns in order. -/
def inferSchema : Result Schema := do
  let fields ← s.columns.mapM fun c => c.inferType.map (c.name, ·)
  Schema.ofFields fields

/-- The values of a column under the type that a schema gives it. -/
def columnAs (field : String × DataType) : Result Column :=
  match s.column? field.1 with
  | some c => c.array.scalars.map (⟨field.2, ·⟩)
  | none => .error (.schema (.missingColumn field.1))

/-- The rows in the layout of a schema, columns being matched by name. -/
def toBatch (schema : Schema) : Result Batch := do
  let columns ← schema.fields.mapM s.columnAs
  if columns.isEmpty then return .ofCount s.numRows else Batch.ofColumns columns

/-- The first `n` rows. The values of every column must be readable. -/
def head (n : Nat) : Result Source := do
  let columns ← s.columns.mapM fun c =>
    c.array.scalars.map fun _ => { c with array := c.array.take n }
  ofColumns columns

end Source

end TableQuery
