import TableQuery.DataType.Basic

/-! # Texts of data types

A type is written by its name and parameters, with a `!` in front when it is not nullable. -/

namespace TableQuery

namespace BaseType

def text : BaseType → String
  | boolean => "boolean"
  | int t => t.name
  | float t => t.name
  | decimal p s => "decimal(" ++ toString p ++ ", " ++ toString s ++ ")"
  | utf8 => "string"
  | binary => "binary"
  | date => "date"
  | time => "time"
  | timestamp none => "timestamp"
  | timestamp (some zone) => "timestamp('" ++ zone ++ "')"
  | interval u => "interval('" ++ u.short ++ "')"
  | unknown => "unknown"

/-- The name of the kind of type, without parameters. -/
def kindName : BaseType → String
  | boolean => "Boolean"
  | int .int8 => "Int8" | int .int16 => "Int16" | int .int32 => "Int32" | int .int64 => "Int64"
  | int .uint8 => "UInt8" | int .uint16 => "UInt16" | int .uint32 => "UInt32"
  | int .uint64 => "UInt64"
  | float .float16 => "Float16" | float .float32 => "Float32" | float .float64 => "Float64"
  | decimal _ _ => "Decimal"
  | utf8 => "Utf8"
  | binary => "Binary"
  | date => "Date"
  | time => "Time"
  | timestamp _ => "Timestamp"
  | interval _ => "Interval"
  | unknown => "Unknown"

end BaseType

namespace DataType

/-- The mark of a type whose values are never null. -/
def mark (nullable : Bool) : String := if nullable then "" else "!"

mutual

def text : DataType → String
  | .null => "null"
  | .base t n => mark n ++ t.text
  | .list e n => mark n ++ "array<" ++ text e ++ ">"
  | .struct fs n => mark n ++ "struct<" ++ ", ".intercalate (fieldTexts fs) ++ ">"
  | .map k v n => mark n ++ "map<" ++ text k ++ ", " ++ text v ++ ">"

def fieldTexts : List (String × DataType) → List String
  | [] => []
  | (name, t) :: r => (name ++ ": " ++ text t) :: fieldTexts r

end

/-- The name of the kind of type, without parameters and nullability. -/
def kindName : DataType → String
  | null => "Null"
  | base t _ => t.kindName
  | list _ _ => "List"
  | struct _ _ => "Struct"
  | map _ _ _ => "Map"

end DataType

end TableQuery
