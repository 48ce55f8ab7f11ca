import TableQuery.Scalar.Basic
import TableQuery.DataType.Supertype

/-! # The type of a value

A value has the exact type of its variant, not nullable unless it is null. A list whose elements
have no common supertype is a list of unknown. -/

namespace TableQuery

namespace Scalar

mutual

/-- The type of a value. -/
def dataType : Scalar → DataType
  | .null => .null
  | .boolean _ => .base .boolean false
  | .int t _ => .base (.int t) false
  | .float t _ => .base (.float t) false
  | .decimal d => .base (.decimal d.precision d.scale) false
  | .utf8 _ => .base .utf8 false
  | .binary _ => .base .binary false
  | .date _ => .base .date false
  | .time _ => .base .time false
  | .timestamp _ zone => .base (.timestamp zone) false
  | .interval iv => .base (.interval iv.unit) false
  | .list values => .list ((DataType.supertypeOfAll? (dataTypes values)).getD .unknown) false
  | .struct fields => .struct (fieldTypes fields) false

def dataTypes : List Scalar → List DataType
  | [] => []
  | v :: r => dataType v :: dataTypes r

def fieldTypes : List (String × Scalar) → List (String × DataType)
  | [] => []
  | (name, v) :: r => (name, dataType v) :: fieldTypes r

end

/-- The finest unit among the intervals in a list of values. -/
def finestUnit? (values : List Scalar) : Option IntervalUnit :=
  let units := values.filterMap fun
    | .interval iv => some iv.unit
    | _ => none
  match units with
  | [] => none
  | u :: us => some (us.foldl IntervalUnit.finest u)

end Scalar

end TableQuery
