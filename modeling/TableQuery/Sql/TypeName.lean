import TableQuery.DataType.Reader
import TableQuery.Schema
import TableQuery.Sql.Quoted

/-! # SQL type names

The type names of `CREATE TABLE` and `CAST`, and the reader of the names that a backend reports.
Reading knows the written names and common aliases, and gives nullable types. A name says less
than a type: half precision is written as single, and zones and units are left out. -/

namespace TableQuery.Sql

/-- The name of a type without parts. -/
def baseTypeName : BaseType → Result String
  | .boolean => .ok "BOOLEAN"
  | .int .int8 => .ok "TINYINT"
  | .int .int16 => .ok "SMALLINT"
  | .int .int32 => .ok "INTEGER"
  | .int .int64 => .ok "BIGINT"
  | .int .uint8 => .ok "UTINYINT"
  | .int .uint16 => .ok "USMALLINT"
  | .int .uint32 => .ok "UINTEGER"
  | .int .uint64 => .ok "UBIGINT"
  | .float .float16 | .float .float32 => .ok "REAL"
  | .float .float64 => .ok "DOUBLE"
  | .decimal p s => .ok ("DECIMAL(" ++ toString p ++ ", " ++ toString s ++ ")")
  | .utf8 => .ok "VARCHAR"
  | .binary => .ok "BLOB"
  | .date => .ok "DATE"
  | .time => .ok "TIME"
  | .timestamp none => .ok "TIMESTAMP"
  | .timestamp (some _) => .ok "TIMESTAMP WITH TIME ZONE"
  | .interval _ => .ok "INTERVAL"
  | .unknown => .error (.plan .noSqlType)

namespace Dialect

mutual

/-- The SQL name of a type; columns of unknown type have none. -/
def typeName (d : Dialect) : DataType → Result String
  | .null => .ok "NULL"
  | .base t _ => baseTypeName t
  | .list e _ => do return (← typeName d e) ++ "[]"
  | .struct fs _ => do return "STRUCT(" ++ ", ".intercalate (← fieldTypeNames d fs) ++ ")"
  | .map k v _ => do
    let key ← typeName d k
    let value ← typeName d v
    return "MAP(" ++ key ++ ", " ++ value ++ ")"

def fieldTypeNames (d : Dialect) : List (String × DataType) → Result (List String)
  | [] => .ok []
  | (n, t) :: r => do
    let head ← typeName d t
    let tail ← fieldTypeNames d r
    return (d.name n ++ " " ++ head) :: tail

end

/-- A column in the statement that creates its table. -/
def columnDefinition (d : Dialect) (field : String × DataType) : Result String := do
  let t ← d.typeName field.2
  return d.name field.1 ++ " " ++ t ++ (if field.2.nullable then "" else " NOT NULL")

/-- The statement that creates a table. -/
def createTable (d : Dialect) (table : String) (schema : Schema) : Result String := do
  let columns ← schema.fields.mapM d.columnDefinition
  return "CREATE TABLE " ++ d.name table ++ " (" ++ ", ".intercalate columns ++ ")"

end Dialect

/-! ### Reading -/

/-- The types whose names take no parameters, aliases included. -/
def typeOfName? : String → Option DataType
  | "NULL" => some .null
  | "BOOLEAN" | "BOOL" => some .boolean
  | "TINYINT" | "INT1" => some (.int .int8)
  | "SMALLINT" | "INT2" => some (.int .int16)
  | "INTEGER" | "INT" | "INT4" => some (.int .int32)
  | "BIGINT" | "INT8" => some (.int .int64)
  | "UTINYINT" => some (.int .uint8)
  | "USMALLINT" => some (.int .uint16)
  | "UINTEGER" => some (.int .uint32)
  | "UBIGINT" => some (.int .uint64)
  | "REAL" | "FLOAT" | "FLOAT4" => some (.float .float32)
  | "DOUBLE" | "FLOAT8" | "DOUBLE PRECISION" => some (.float .float64)
  | "VARCHAR" | "TEXT" | "STRING" => some .utf8
  | "BLOB" | "BYTEA" | "VARBINARY" => some .binary
  | "DATE" => some .date
  | "TIME" => some .time
  | "TIMESTAMP" => some (.timestamp none)
  | "TIMESTAMP WITH TIME ZONE" | "TIMESTAMPTZ" => some (.timestamp (some "UTC"))
  | "INTERVAL" => some (.interval .second)
  | _ => none

/-- The characters behind a word. -/
def afterWord? : List Char → List Char → Option (List Char)
  | [], cs => some cs
  | w :: ws, c :: cs => if w = c then afterWord? ws cs else none
  | _ :: _, [] => none

/-- A number of at most eight bits between blanks, with an optional plus sign. -/
def parameter? (cs : List Char) : Option Nat :=
  match trimBlanks cs with
  | '+' :: r => byteOfDigits? r
  | cs => byteOfDigits? cs

/-- Precision and scale in parentheses. -/
def decimalParameters? (cs : List Char) : Option (Nat × Nat) := do
  let inner ← afterWord? ['('] cs
  let inner ← afterWord? [')'] inner.reverse
  let inner := inner.reverse
  let first := inner.takeWhile (· ≠ ',')
  let rest ← afterWord? [','] (inner.drop first.length)
  return (← parameter? first, ← parameter? rest)

/-- The type of a name in capitals, without blanks around it. Errors show the name as given. -/
def typeOfCapitals (given : String) (upper : List Char) : Result DataType :=
  match (afterWord? "DECIMAL".toList upper).or (afterWord? "NUMERIC".toList upper) with
  | some rest =>
    let parameters := trimBlanks rest
    if parameters.isEmpty then .ok (.decimal 18 3)
    else
      match decimalParameters? parameters with
      | some (p, s) => .ok (.decimal p s)
      | none => .error (.typeText (.invalidSqlDecimal given))
  | none =>
    match typeOfName? (String.ofList upper) with
    | some t => .ok t
    | none => .error (.typeText (.unknownSqlName given))

/-- The type of a name: a list for each pair of brackets at its end. The number of characters is
enough fuel. -/
def parseTypeNameFrom (fuel : Nat) (name : List Char) : Result DataType :=
  let name := trimBlanks name
  let upper := name.map Char.toUpper
  match fuel, upper.reverse with
  | fuel + 1, ']' :: '[' :: element => do
    return .list (← parseTypeNameFrom fuel element.reverse) true
  | _, _ => typeOfCapitals (String.ofList name) upper

/-- The type that a backend's type name stands for. -/
def parseTypeName (name : String) : Result DataType :=
  parseTypeNameFrom name.toList.length name.toList

end TableQuery.Sql
