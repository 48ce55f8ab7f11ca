import TableQuery.Scalar.Text
import TableQuery.Sql.Quoted

/-! # Literals

Values as SQL writes them. Floating point values keep a fraction, so that they are not read as
integers; the values that have no digits are casts of their names. -/

namespace TableQuery.Sql

/-- A floating point value as its 64-bit form. -/
def floatLiteral : FloatValue → String
  | .nan => "CAST('NaN' AS DOUBLE)"
  | .infinity negative => "CAST('" ++ (if negative then "-" else "") ++ "Infinity' AS DOUBLE)"
  | x => FloatType.textOf double .literal x

mutual

/-- The literal of a value. -/
def literal : Scalar → String
  | .null => "NULL"
  | .boolean b => if b then "TRUE" else "FALSE"
  | .int _ v => toString v.val
  | .decimal d => d.text
  | .float t v => floatLiteral (t.toDouble v)
  | .utf8 s => stringLiteral s
  | .binary bytes => "X'" ++ hexBytes true bytes ++ "'"
  | .date d => "DATE '" ++ d.text ++ "'"
  | .time t => "TIME '" ++ t.text ++ "'"
  | .timestamp t none => "TIMESTAMP '" ++ t.text ++ "'"
  | .timestamp t (some zone) => "TIMESTAMPTZ '" ++ t.text ++ " " ++ zone ++ "'"
  | .interval iv => "INTERVAL '" ++ toString iv.count.val ++ "' " ++ iv.unit.sqlName
  | .list values => "[" ++ ", ".intercalate (literals values) ++ "]"
  | .struct fields => "\x7b" ++ ", ".intercalate (fieldLiterals fields) ++ "\x7d"

def literals : List Scalar → List String
  | [] => []
  | v :: r => literal v :: literals r

def fieldLiterals : List (String × Scalar) → List String
  | [] => []
  | (name, v) :: r => (stringLiteral name ++ ": " ++ literal v) :: fieldLiterals r

end

end TableQuery.Sql
