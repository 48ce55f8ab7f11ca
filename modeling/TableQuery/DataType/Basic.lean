import TableQuery.Number.IntType
import TableQuery.Number.FloatFormat
import TableQuery.Number.Decimal
import TableQuery.Calendar.Interval

/-! # Data types

A data type says what the values of a column are and whether they may be null. The type of a
constant null is always nullable, so it carries no flag. Lists, structs and maps hold types of
their own, each with its own nullability. Equality is decidable (`instDecidableEqDataType`). -/

namespace TableQuery

/-- The types without parts. -/
inductive BaseType where
  | boolean
  | int (t : IntType)
  | float (t : FloatType)
  /-- Decimals of at most `precision` digits, `scale` of them behind the point. -/
  | decimal (precision scale : Nat)
  | utf8
  | binary
  | date
  | time
  /-- Timestamps, of a named time zone or of none. -/
  | timestamp (zone : Option String)
  | interval (unit : IntervalUnit)
  /-- Values to which no type could be given. -/
  | unknown
  deriving DecidableEq

/-- The types of columns and values. -/
inductive DataType where
  | null
  | base (t : BaseType) (nullable : Bool)
  | list (element : DataType) (nullable : Bool)
  | struct (fields : List (String × DataType)) (nullable : Bool)
  | map (key value : DataType) (nullable : Bool)

namespace DataType

/-! ### Equality -/

mutual

/-- Equality of types, nullability included at every level. -/
def beq : DataType → DataType → Bool
  | .null, .null => true
  | .base a m, .base b n => a == b && m == n
  | .list a m, .list b n => beq a b && m == n
  | .struct a m, .struct b n => beqFields a b && m == n
  | .map k v m, .map l w n => beq k l && beq v w && m == n
  | _, _ => false

def beqFields : List (String × DataType) → List (String × DataType) → Bool
  | [], [] => true
  | (x, t) :: r, (y, u) :: s => x == y && beq t u && beqFields r s
  | _, _ => false

end

mutual

theorem eq_of_beq : ∀ {a b : DataType}, beq a b = true → a = b
  | .null, b, h => by cases b <;> simp_all [beq]
  | .base t m, b, h => by cases b <;> simp_all [beq]
  | .list t m, b, h => by
    cases b <;> simp only [beq, Bool.and_eq_true, beq_iff_eq, Bool.false_eq_true] at h
    rw [eq_of_beq h.1, h.2]
  | .struct fs m, b, h => by
    cases b <;> simp only [beq, Bool.and_eq_true, beq_iff_eq, Bool.false_eq_true] at h
    rw [eq_of_beqFields h.1, h.2]
  | .map k v m, b, h => by
    cases b <;> simp only [beq, Bool.and_eq_true, beq_iff_eq, Bool.false_eq_true] at h
    rw [eq_of_beq h.1.1, eq_of_beq h.1.2, h.2]

theorem eq_of_beqFields : ∀ {a b : List (String × DataType)}, beqFields a b = true → a = b
  | [], b, h => by cases b <;> simp_all [beqFields]
  | (x, t) :: r, b, h => by
    cases b <;> simp only [beqFields, Bool.and_eq_true, beq_iff_eq, Bool.false_eq_true] at h
    rw [h.1.1, eq_of_beq h.1.2, eq_of_beqFields h.2]

end

mutual

theorem beq_refl : ∀ a : DataType, beq a a = true
  | .null => by simp [beq]
  | .base t m => by simp [beq]
  | .list t m => by simp [beq, beq_refl t]
  | .struct fs m => by simp [beq, beqFields_refl fs]
  | .map k v m => by simp [beq, beq_refl k, beq_refl v]

theorem beqFields_refl : ∀ a : List (String × DataType), beqFields a a = true
  | [] => by simp [beqFields]
  | (x, t) :: r => by simp [beqFields, beq_refl t, beqFields_refl r]

end

instance : DecidableEq DataType := fun a b =>
  if h : beq a b = true then isTrue (eq_of_beq h)
  else isFalse fun e => h (e ▸ beq_refl a)

/-! ### Nullability -/

/-- Whether values of the type may be null. -/
def nullable : DataType → Bool
  | null => true
  | base _ n | list _ n | struct _ n | map _ _ n => n

/-- The type with another nullability; the null type stays as it is. -/
def withNullable (n : Bool) : DataType → DataType
  | null => null
  | base t _ => base t n
  | list e _ => list e n
  | struct fs _ => struct fs n
  | map k v _ => map k v n

/-- The type whose values are never null. -/
abbrev nonNull (t : DataType) : DataType := t.withNullable false

@[simp] theorem withNullable_nullable (t : DataType) : t.withNullable t.nullable = t := by
  cases t <;> rfl

mutual

/-- The type with every nullability, at every level, set. -/
def allNullable : DataType → DataType
  | .null => .null
  | .base t _ => .base t true
  | .list e _ => .list (allNullable e) true
  | .struct fs _ => .struct (allNullableFields fs) true
  | .map k v _ => .map (allNullable k) (allNullable v) true

def allNullableFields : List (String × DataType) → List (String × DataType)
  | [] => []
  | (n, t) :: r => (n, allNullable t) :: allNullableFields r

end

/-- Whether two types differ at most in nullability, at any level. -/
def sameKind (a b : DataType) : Bool := a.allNullable == b.allNullable

/-! ### Families -/

def isNull : DataType → Bool
  | null => true
  | _ => false

def isBoolean : DataType → Bool
  | base .boolean _ => true
  | _ => false

/-- The integer type of an integer column. -/
def intType? : DataType → Option IntType
  | base (.int t) _ => some t
  | _ => none

/-- The floating point type of a floating point column. -/
def floatType? : DataType → Option FloatType
  | base (.float t) _ => some t
  | _ => none

def isInteger (t : DataType) : Bool := t.intType?.isSome

def isSignedInteger (t : DataType) : Bool := t.intType?.any (·.isSigned)

def isUnsignedInteger (t : DataType) : Bool := t.intType?.any (!·.isSigned)

def isFloating (t : DataType) : Bool := t.floatType?.isSome

def isDecimal : DataType → Bool
  | base (.decimal _ _) _ => true
  | _ => false

def isInterval : DataType → Bool
  | base (.interval _) _ => true
  | _ => false

def isTimestamp : DataType → Bool
  | base (.timestamp _) _ => true
  | _ => false

def isNumeric (t : DataType) : Bool := t.isInteger || t.isFloating || t.isDecimal

def isTemporal : DataType → Bool
  | base .date _ | base .time _ | base (.timestamp _) _ => true
  | _ => false

/-- The width in bits of integers and floating point values. -/
def bitWidth? : DataType → Option Nat
  | base (.int t) _ => some t.bits
  | base (.float t) _ => some t.bits
  | _ => none

/-! ### Common types -/

abbrev boolean : DataType := base .boolean true
abbrev int (t : IntType) : DataType := base (.int t) true
abbrev float (t : FloatType) : DataType := base (.float t) true
abbrev int64 : DataType := int .int64
abbrev float64 : DataType := float .float64
abbrev decimal (precision scale : Nat) : DataType := base (.decimal precision scale) true
abbrev utf8 : DataType := base .utf8 true
abbrev binary : DataType := base .binary true
abbrev date : DataType := base .date true
abbrev time : DataType := base .time true
abbrev timestamp (zone : Option String) : DataType := base (.timestamp zone) true
abbrev interval (u : IntervalUnit) : DataType := base (.interval u) true
abbrev unknown : DataType := base .unknown true

end DataType

end TableQuery
