/-! # Binary floating point formats

The values of the 16, 32 and 64 bit binary interchange formats are held as bit patterns. A finite
value is a whole number of *units*, the unit being the format's smallest positive value, so
comparison and remainder of two values of one format are integer operations, and a sum is exact
before it is rounded. `FloatFormat.round` is the one place where rounding happens: to the nearest
value, a tie going to the even significand.

Assumed are the rules of the standard for these formats: the exponent fields of subnormal values,
infinities and NaN, rounding to the nearest value with ties to even for every conversion and sum, an
infinity beyond the greatest finite value, and comparisons in which NaN equals nothing and both
zeros are equal. -/

namespace TableQuery

-- Powers are those of the core library, also where other instances are in scope.
attribute [local instance (2000)] instPowNat

/-- A binary format: the stored bits of the significand and the bits of the exponent. -/
structure FloatFormat where
  fractionBits : Nat
  exponentBits : Nat
  deriving DecidableEq

/-- The floating point types of columns and values. -/
inductive FloatType where
  | float16 | float32 | float64
  deriving DecidableEq

namespace FloatFormat

/-- The number of bits in a value: a sign, the exponent and the fraction. -/
def width (f : FloatFormat) : Nat := 1 + f.exponentBits + f.fractionBits

/-- The exponent field of infinities and NaN. -/
def topExponent (f : FloatFormat) : Nat := 2 ^ f.exponentBits - 1

/-- The unit is `2 ^ (-unitPlaces)`. -/
def unitPlaces (f : FloatFormat) : Nat := 2 ^ (f.exponentBits - 1) - 2 + f.fractionBits

end FloatFormat

/-- What a bit pattern stands for. A finite value is `units` times the format's unit, with its sign
kept apart because zero has two. -/
inductive FloatValue where
  | nan
  | infinity (negative : Bool)
  | finite (negative : Bool) (units : Nat)
  deriving DecidableEq

namespace FloatValue

def isNaN : FloatValue → Bool
  | nan => true
  | _ => false

/-- The value with its sign turned round. -/
def neg : FloatValue → FloatValue
  | nan => nan
  | infinity s => infinity (!s)
  | finite s n => finite (!s) n

/-- The signed number of units of a finite value. -/
def signedUnits (negative : Bool) (units : Nat) : Int := if negative then -units else units

/-- The order of two values of one format. The two zeros are equal, and NaN compares with
nothing. -/
def compare? : FloatValue → FloatValue → Option Ordering
  | nan, _ | _, nan => none
  | infinity a, infinity b => some (Ord.compare b a)
  | infinity a, finite _ _ => some (if a then .lt else .gt)
  | finite _ _, infinity b => some (if b then .gt else .lt)
  | finite a m, finite b n => some (Ord.compare (signedUnits a m) (signedUnits b n))

/-- Equality of numbers: the two zeros are equal and NaN is not equal to itself. -/
def equal (a b : FloatValue) : Bool := compare? a b == some .eq

/-- The remainder of the division of two values of one format, truncated towards zero. It is exact
and has the sign of the first operand. -/
def rem : FloatValue → FloatValue → FloatValue
  | .nan, _ | _, .nan | .infinity _, _ => .nan
  | x, .infinity _ => x
  | .finite a m, .finite _ n => if n = 0 then .nan else .finite a (m % n)

end FloatValue

/-- The whole number nearest to `num / den`, a tie going to the even one. -/
def roundHalfEven (num den : Nat) : Nat :=
  let q := num / den
  let r := num % den
  if 2 * r < den then q
  else if den < 2 * r then q + 1
  else if q % 2 = 0 then q else q + 1

namespace FloatFormat

variable (f : FloatFormat)

/-- How many low bits of a number of units do not fit the significand. -/
def excessBits (n : Nat) : Nat := n.log2 - f.fractionBits

/-- The number of units nearest to `num / den` among those the significand can hold. -/
def roundUnits (num den : Nat) : Nat :=
  let s := f.excessBits (num / den)
  roundHalfEven num (den * 2 ^ s) * 2 ^ s

/-- One more than the largest number of units of a finite value, as rounded. -/
def infinityUnits : Nat := 2 ^ (f.fractionBits + f.topExponent - 1)

/-- The value nearest to `num / den` units. -/
def round (negative : Bool) (num den : Nat) : FloatValue :=
  let n := f.roundUnits num den
  if n < f.infinityUnits then .finite negative n else .infinity negative

/-- The bits below the sign of a magnitude. Below the second binade they are the number of units
itself; above it the exponent counts the excess bits. -/
def encodeUnits (n : Nat) : Nat :=
  let s := f.excessBits n
  s * 2 ^ f.fractionBits + n / 2 ^ s

/-- The number of units that the bits below the sign stand for. -/
def decodeUnits (b : Nat) : Nat :=
  let e := b / 2 ^ f.fractionBits
  let m := b % 2 ^ f.fractionBits
  if e = 0 then m else (2 ^ f.fractionBits + m) * 2 ^ (e - 1)

/-- The bit pattern of a value; NaN has one. -/
def encode : FloatValue → BitVec f.width
  | .nan => BitVec.ofNat _ (f.topExponent * 2 ^ f.fractionBits + 2 ^ (f.fractionBits - 1))
  | .infinity s => sign s (f.topExponent * 2 ^ f.fractionBits)
  | .finite s n => sign s (f.encodeUnits n)
where
  sign (negative : Bool) (b : Nat) : BitVec f.width :=
    BitVec.ofNat _ ((if negative then 2 ^ (f.width - 1) else 0) + b)

/-- The value of a bit pattern. -/
def decode (bits : BitVec f.width) : FloatValue :=
  let negative := bits.toNat / 2 ^ (f.width - 1) = 1
  let b := bits.toNat % 2 ^ (f.width - 1)
  let top := f.topExponent * 2 ^ f.fractionBits
  if b < top then .finite negative (f.decodeUnits b)
  else if b = top then .infinity negative
  else .nan

/-- The value of this format nearest to a value of the format `g`. -/
def convert (g : FloatFormat) : FloatValue → FloatValue
  | .nan => .nan
  | .infinity s => .infinity s
  | .finite s n => f.round s (n * 2 ^ f.unitPlaces) (2 ^ g.unitPlaces)

/-- The value nearest to an integer. -/
def ofInt (v : Int) : FloatValue := f.round (v < 0) (v.natAbs * 2 ^ f.unitPlaces) 1

/-! ### Arithmetic

Each operation is computed exactly and rounded once. -/

/-- A sum that is exactly zero is negative only when both terms are. -/
def add : FloatValue → FloatValue → FloatValue
  | .nan, _ | _, .nan => .nan
  | .infinity a, .infinity b => if a = b then .infinity a else .nan
  | .infinity a, .finite _ _ => .infinity a
  | .finite _ _, .infinity b => .infinity b
  | .finite a m, .finite b n =>
    let s := FloatValue.signedUnits a m + FloatValue.signedUnits b n
    if s = 0 then .finite (a && b) 0 else f.round (s < 0) s.natAbs 1

def sub (x y : FloatValue) : FloatValue := f.add x y.neg

def mul : FloatValue → FloatValue → FloatValue
  | .nan, _ | _, .nan => .nan
  | .infinity a, .infinity b => .infinity (a != b)
  | .infinity a, .finite b n => if n = 0 then .nan else .infinity (a != b)
  | .finite a m, .infinity b => if m = 0 then .nan else .infinity (a != b)
  | .finite a m, .finite b n => f.round (a != b) (m * n) (2 ^ f.unitPlaces)

def div : FloatValue → FloatValue → FloatValue
  | .nan, _ | _, .nan => .nan
  | .infinity _, .infinity _ => .nan
  | .infinity a, .finite b _ => .infinity (a != b)
  | .finite a _, .infinity b => .finite (a != b) 0
  | .finite a m, .finite b n =>
    if n = 0 then (if m = 0 then .nan else .infinity (a != b))
    else f.round (a != b) (m * 2 ^ f.unitPlaces) n

/-- The value one. -/
def one : FloatValue := .finite false (2 ^ f.unitPlaces)

/-- Powers by repeated squaring, each product rounded: the least significant bit of the exponent
comes first. -/
def pow (x : FloatValue) (n : Nat) : FloatValue := go (n + 1) f.one x n
where
  go : Nat → FloatValue → FloatValue → Nat → FloatValue
    | 0, r, _, _ => r
    | fuel + 1, r, a, n =>
      let r := if n % 2 = 1 then f.mul r a else r
      if n / 2 = 0 then r else go fuel r (f.mul a a) (n / 2)

end FloatFormat

namespace FloatType

def format : FloatType → FloatFormat
  | float16 => ⟨10, 5⟩
  | float32 => ⟨23, 8⟩
  | float64 => ⟨52, 11⟩

/-- The number of bits of a value. -/
def bits : FloatType → Nat
  | float16 => 16
  | float32 => 32
  | float64 => 64

/-- The narrowest type of at least the given number of bits, `float64` beyond that. -/
def ofBits (n : Nat) : FloatType :=
  if n ≤ 16 then float16 else if n ≤ 32 then float32 else float64

/-- The type's name in type texts. -/
def name : FloatType → String
  | float16 => "float16" | float32 => "float32" | float64 => "float64"

/-- The bit patterns of a floating point type. -/
abbrev Value (t : FloatType) := BitVec t.format.width

/-- What the pattern stands for in its own format. -/
def decode (t : FloatType) (v : t.Value) : FloatValue := t.format.decode v

/-- The pattern of a value of the type's own format. -/
def encode (t : FloatType) (v : FloatValue) : t.Value := t.format.encode v

/-- The pattern's value as a 64-bit one, which is exact. -/
def toDouble (t : FloatType) (v : t.Value) : FloatValue :=
  match t with
  | float64 => float64.decode v
  | t => float64.format.convert t.format (t.decode v)

/-- The pattern of the type nearest to a 64-bit value. A 16-bit one is rounded from the 32-bit one,
so a value within half a 32-bit unit of a tie counts as a tie. -/
def ofDouble (t : FloatType) (x : FloatValue) : t.Value :=
  match t with
  | float64 => float64.encode x
  | float32 => float32.encode (float32.format.convert float64.format x)
  | float16 => float16.encode
    (float16.format.convert float32.format (float32.format.convert float64.format x))

end FloatType

/-- The 64-bit format, in which mixed numbers are compared and computed. -/
abbrev double : FloatFormat := FloatType.float64.format

example : double.unitPlaces = 1074 := by decide
example : FloatType.float16.format.unitPlaces = 24 := by decide
example : double.infinityUnits = 2 ^ 2098 := by decide +kernel

end TableQuery
