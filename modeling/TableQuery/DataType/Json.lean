import TableQuery.Text.Json
import TableQuery.DataType.Reader
import TableQuery.Schema

/-! # Data types as JSON

A type is an object of its kind and its nullability. A kind without parameters is a string, any
other an object with the kind's name as its only member. -/

namespace TableQuery

namespace BaseType

def toJson (t : BaseType) : Json :=
  match t with
  | .decimal p s =>
    .object [("Decimal",
      .object [("precision", .number (toString p)), ("scale", .number (toString s))])]
  | .timestamp zone =>
    .object [("Timestamp", .object [("timezone", zone.elim .null .string)])]
  | .interval u => .object [("Interval", .string u.title)]
  | t => .string t.kindName

end BaseType

namespace DataType

/-- A kind with its nullability. -/
def jsonOf (kind : Json) (nullable : Bool) : Json :=
  .object [("kind", kind), ("nullable", .bool nullable)]

mutual

def toJson : DataType → Json
  | .null => jsonOf (.string "Null") true
  | .base t n => jsonOf t.toJson n
  | .list e n => jsonOf (.object [("List", .object [("datatype", toJson e)])]) n
  | .struct fs n => jsonOf (.object [("Struct", .object [("fields", .array (fieldsToJson fs))])]) n
  | .map k v n =>
    jsonOf (.object [("Map", .object [("key", toJson k), ("value", toJson v)])]) n

def fieldsToJson : List (String × DataType) → List Json
  | [] => []
  | (n, t) :: r => .array [.string n, toJson t] :: fieldsToJson r

end

/-! ### Reading -/

/-- The types without parameters, by the names of their kinds. -/
def plainKinds : List DataType :=
  [.null, .boolean, .int .int8, .int .int16, .int .int32, .int .int64, .int .uint8, .int .uint16,
    .int .uint32, .int .uint64, .float .float16, .float .float32, .float .float64, .utf8, .binary,
    .date, .time, .unknown]

/-- A number of at most eight bits. -/
def jsonByte? : Json → Option Nat
  | .number t => byteOfDigits? t.toList
  | _ => none

/-- A unit by its capitalised word. -/
def jsonUnit? (j : Json) : Option IntervalUnit :=
  match j.variant? with
  | some (n, none) | some (n, some .null) => IntervalUnit.all.find? (·.title = n)
  | _ => none

/-- A kind of type; its nullability is still open. Types inside it use up fuel. -/
def kindOfJson? (typeOf : Json → Option DataType) (j : Json) : Option DataType :=
  match j.variant? with
  | some (n, none) | some (n, some .null) => plainKinds.find? (·.kindName = n)
  | some ("Decimal", some j) =>
    match j.fields? ["precision", "scale"] with
    | some [some p, some s] => do return .decimal (← jsonByte? p) (← jsonByte? s)
    | _ => none
  | some ("Timestamp", some j) =>
    match j.fields? ["timezone"] with
    | some [none] | some [some .null] => some (.timestamp none)
    | some [some (.string zone)] => some (.timestamp (some zone))
    | _ => none
  | some ("Interval", some j) => (jsonUnit? j).map .interval
  | some ("List", some j) =>
    match j.fields? ["datatype"] with
    | some [some t] => (typeOf t).map (.list · true)
    | _ => none
  | some ("Struct", some j) =>
    match j.fields? ["fields"] with
    | some [some (.array fs)] => do
      let fields ← fs.mapM fun
        | .array [.string n, t] => (typeOf t).map (n, ·)
        | _ => none
      return .struct fields true
    | _ => none
  | some ("Map", some j) =>
    match j.fields? ["key", "value"] with
    | some [some k, some v] => do return .map (← typeOf k) (← typeOf v) true
    | _ => none
  | _ => none

/-- The type of a JSON value whose types are nested less deeply than the fuel. -/
def ofJson? : Nat → Json → Option DataType
  | 0, _ => none
  | fuel + 1, j =>
    match j.fields? ["kind", "nullable"] with
    | some [some kind, some (.bool nullable)] =>
      (kindOfJson? (ofJson? fuel) kind).map (·.withNullable nullable)
    | _ => none

/-- The type of a JSON text. -/
def ofJsonText? (text : String) : Option DataType := do
  ofJson? Json.maxDepth (← Json.ofText? text)

end DataType

namespace Schema

/-- The columns as members of one object. -/
def toJson (s : Schema) : Json :=
  .object [("fields", .object (s.fields.map fun (n, t) => (n, t.toJson)))]

end Schema

end TableQuery
