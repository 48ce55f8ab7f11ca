import TableQuery.DataType.Basic

/-! # Common supertypes

The narrowest type that two types can both be represented in. Null goes with anything; integers
widen, a mix of signed and unsigned to the next signed width; integers and floating point numbers
meet in 64-bit floating point; decimals take the greater precision and scale; timestamps must
agree on the zone; intervals take the finer unit; lists, structs and maps are unified part by
part. The result is nullable when either type is. -/

namespace TableQuery

namespace IntType

/-- The type that two integer types widen to. -/
def join (a b : IntType) : IntType :=
  match a.isSigned, b.isSigned with
  | true, true => signedOfBits (max a.bits b.bits)
  | false, false => unsignedOfBits (max a.bits b.bits)
  | true, false => signedOfBits (max a.bits (b.bits * 2))
  | false, true => signedOfBits (max b.bits (a.bits * 2))

end IntType

namespace BaseType

/-- The decimal type that holds a decimal type and an integer type, of at most the greatest
precision. -/
def decimalWithInt (precision scale : Nat) (t : IntType) : BaseType :=
  .decimal (min (max precision (t.digits + scale)) maxPrecision) scale

def supertype? : BaseType → BaseType → Option BaseType
  | .int a, .int b => some (.int (a.join b))
  | .float a, .float b => some (.float (.ofBits (max a.bits b.bits)))
  | .int _, .float _ | .float _, .int _ => some (.float .float64)
  | .decimal p s, .decimal q t => some (.decimal (max p q) (max s t))
  | .decimal p s, .int t | .int t, .decimal p s => some (decimalWithInt p s t)
  | .decimal _ _, .float _ | .float _, .decimal _ _ => some (.float .float64)
  | .interval a, .interval b => some (.interval (a.finest b))
  | a, b => if a = b then some a else none

end BaseType

namespace DataType

mutual

/-- The narrowest type that both types can be represented in. -/
def supertype? : DataType → DataType → Option DataType
  | .null, b => some (b.withNullable true)
  | a, .null => some (a.withNullable true)
  | .base a m, .base b n => (a.supertype? b).map fun t => .base t (m || n)
  | .list a m, .list b n => (supertype? a b).map fun t => .list t (m || n)
  | .struct a m, .struct b n => (supertypeFields? a b).map fun fs => .struct fs (m || n)
  | .map k v m, .map l w n => do
    let key ← supertype? k l
    let value ← supertype? v w
    return .map key value (m || n)
  | _, _ => none

/-- Structs unify when they have the same field names in the same order. -/
def supertypeFields? : List (String × DataType) → List (String × DataType) →
    Option (List (String × DataType))
  | [], [] => some []
  | (x, t) :: r, (y, u) :: s =>
    if x = y then do
      let head ← supertype? t u
      let tail ← supertypeFields? r s
      return (x, head) :: tail
    else none
  | _, _ => none

end

/-- Whether values of the two types can be compared. Timestamps of different zones can, since both
are instants. -/
def isComparable (a b : DataType) : Bool :=
  a.isNull || b.isNull || (a.isTimestamp && b.isTimestamp) || (a.supertype? b).isSome

/-- The supertype of a whole list of types, the null type for none. -/
def supertypeOfAll? : List DataType → Option DataType
  | [] => some .null
  | t :: ts => ts.foldlM supertype? t

end DataType

end TableQuery
