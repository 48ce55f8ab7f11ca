import TableQuery.Scalar.Basic
import TableQuery.Number.FloatText

/-! # Texts of values

The display of a value: a string stands without quotes, bytes in hexadecimal, a list in brackets
and a struct in braces. -/

namespace TableQuery

/-- The two hexadecimal digits of a byte. -/
def hexByte (upper : Bool) (b : UInt8) : String :=
  let digit (n : Nat) : Char :=
    if n < 10 then Char.ofNat ('0'.toNat + n)
    else Char.ofNat ((if upper then 'A' else 'a').toNat + n - 10)
  String.ofList [digit (b.toNat / 16), digit (b.toNat % 16)]

/-- The hexadecimal digits of a list of bytes. -/
def hexBytes (upper : Bool) (bytes : List UInt8) : String := String.join (bytes.map (hexByte upper))

namespace Scalar

mutual

def text : Scalar → String
  | .null => "NULL"
  | .boolean b => if b then "true" else "false"
  | .int _ v => toString v.val
  | .float t v => t.display v
  | .decimal d => d.text
  | .utf8 s => s
  | .binary bytes => "\\x" ++ hexBytes false bytes
  | .date d => d.text
  | .time t => t.text
  | .timestamp t none => t.text
  | .timestamp t (some zone) => t.text ++ " " ++ zone
  | .interval iv => iv.text
  | .list values => "[" ++ ", ".intercalate (texts values) ++ "]"
  | .struct fields => "\x7b" ++ ", ".intercalate (fieldTexts fields) ++ "\x7d"

def texts : List Scalar → List String
  | [] => []
  | v :: r => text v :: texts r

def fieldTexts : List (String × Scalar) → List String
  | [] => []
  | (name, v) :: r => (name ++ ": " ++ text v) :: fieldTexts r

end

end Scalar

end TableQuery
