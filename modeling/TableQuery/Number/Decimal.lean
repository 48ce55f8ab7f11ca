import TableQuery.Number.Bounded
import TableQuery.Number.FloatFormat

/-! # Decimals

A decimal is an unscaled 128-bit integer with the number of its digits behind the point. Its text
writes every digit of the scale, so texts of different decimals differ. -/

namespace TableQuery

-- Powers are those of the core library, also where other instances are in scope.
attribute [local instance (2000)] instPowNat

/-- The greatest precision that a decimal type is given by inference. -/
def maxPrecision : Nat := 38

/-- The number `unscaled / 10 ^ scale`. Inference gives scales of at most `maxPrecision`. Of a
greater scale nothing is specified, since its power of ten is no 128-bit integer; here the power is
exact. -/
structure Decimal where
  unscaled : Int128
  scale : Nat
  deriving DecidableEq

/-- A text padded with zeros on the left to at least the given length. -/
def padZeros (width : Nat) (s : String) : String :=
  "".pushn '0' (width - s.length) ++ s

namespace Decimal

/-- The number of decimal digits of a natural number, none for zero. -/
def digitCount (n : Nat) : Nat := if n = 0 then 0 else (Nat.toDigits 10 n).length

/-- The number of digits a type needs for the value: those of the unscaled value, and at least one
before the point. -/
def precision (d : Decimal) : Nat := max (digitCount d.unscaled.val.natAbs) (d.scale + 1)

/-- A sign if the value is negative, the integral part, and every digit of the scale. -/
def text (d : Decimal) : String :=
  let sign := if d.unscaled.val < 0 then "-" else ""
  let n := d.unscaled.val.natAbs
  if d.scale = 0 then sign ++ toString n
  else sign ++ toString (n / 10 ^ d.scale) ++ "." ++ padZeros d.scale (toString (n % 10 ^ d.scale))

/-- The nearest 64-bit value of the unscaled integer, divided by a power of ten of that format. -/
def toDouble (d : Decimal) : FloatValue :=
  double.div (double.ofInt d.unscaled.val) (double.pow (double.ofInt 10) d.scale)

end Decimal

end TableQuery
