import TableQuery.Number.Bounded

/-! # The eight integer widths

An integer type is signed or unsigned and 8, 16, 32 or 64 bits wide. Its values are the integers
between `lo` and `hi`; every one of them is also a 128-bit integer (`IntType.int128_range`).
-/

namespace TableQuery

/-- The integer types of columns and values. -/
inductive IntType where
  | int8 | int16 | int32 | int64
  | uint8 | uint16 | uint32 | uint64
  deriving DecidableEq

namespace IntType

/-- All widths, signed ones first, narrowest first. -/
def all : List IntType := [int8, int16, int32, int64, uint8, uint16, uint32, uint64]

def isSigned : IntType → Bool
  | int8 | int16 | int32 | int64 => true
  | uint8 | uint16 | uint32 | uint64 => false

def bits : IntType → Nat
  | int8 | uint8 => 8
  | int16 | uint16 => 16
  | int32 | uint32 => 32
  | int64 | uint64 => 64

/-- The least value of the type. -/
def lo : IntType → Int
  | int8 => -128
  | int16 => -32768
  | int32 => -2147483648
  | int64 => -9223372036854775808
  | uint8 | uint16 | uint32 | uint64 => 0

/-- The greatest value of the type. -/
def hi : IntType → Int
  | int8 => 127
  | int16 => 32767
  | int32 => 2147483647
  | int64 => 9223372036854775807
  | uint8 => 255
  | uint16 => 65535
  | uint32 => 4294967295
  | uint64 => 18446744073709551615

/-- The values of an integer type. -/
abbrev Value (t : IntType) := Bounded t.lo t.hi

/-- The integer as a value of the type, if it fits. -/
abbrev ofInt? (t : IntType) (v : Int) : Option t.Value := Bounded.ofInt? t.lo t.hi v

/-- The narrowest signed type of at least the given number of bits, `int64` beyond that. -/
def signedOfBits (n : Nat) : IntType :=
  if n ≤ 8 then int8 else if n ≤ 16 then int16 else if n ≤ 32 then int32 else int64

/-- The narrowest unsigned type of at least the given number of bits, `uint64` beyond that. -/
def unsignedOfBits (n : Nat) : IntType :=
  if n ≤ 8 then uint8 else if n ≤ 16 then uint16 else if n ≤ 32 then uint32 else uint64

/-- How many decimal digits the longest value of the type has. -/
def digits : IntType → Nat
  | int8 | uint8 => 3
  | int16 | uint16 => 5
  | int32 | uint32 => 10
  | int64 => 19
  | uint64 => 20

/-- The type's name in type texts. -/
def name : IntType → String
  | int8 => "int8" | int16 => "int16" | int32 => "int32" | int64 => "int64"
  | uint8 => "uint8" | uint16 => "uint16" | uint32 => "uint32" | uint64 => "uint64"

theorem int128_range (t : IntType) : minInt128 ≤ t.lo ∧ t.hi ≤ maxInt128 := by
  cases t <;> decide

end IntType

/-- The 64-bit signed integers. -/
abbrev Int64Value := IntType.Value .int64

end TableQuery
