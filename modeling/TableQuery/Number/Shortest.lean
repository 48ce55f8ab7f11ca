import TableQuery.Number.FloatFormat

/-! # Shortest decimal digits

The shortest decimal that reads back as a given finite value, and of the shortest ones the
nearest. The decimals that read back fill the *rounding interval* of the value, from half way to
the value below it to half way to the value above it, the ends included when its significand is
even. For each number of digits the two neighbours of the value on that decimal grid are tried. -/

namespace TableQuery

-- Powers are those of the core library, also where other instances are in scope.
attribute [local instance (2000)] instPowNat

/-- The number `coefficient * 10 ^ exponent`. -/
structure DecimalDigits where
  coefficient : Nat
  exponent : Int
  deriving DecidableEq

namespace DecimalDigits

/-- The digits of the coefficient. -/
def digits (d : DecimalDigits) : List Char := Nat.toDigits 10 d.coefficient

/-- The exponent that the first digit has in scientific notation. -/
def magnitude (d : DecimalDigits) : Int := d.exponent + d.digits.length - 1

/-- The same number without trailing zeros in the coefficient. -/
def trim (d : DecimalDigits) : DecimalDigits := go d.coefficient d
where
  go : Nat → DecimalDigits → DecimalDigits
    | 0, d => d
    | fuel + 1, d =>
      if d.coefficient ≠ 0 ∧ d.coefficient % 10 = 0 then
        go fuel ⟨d.coefficient / 10, d.exponent + 1⟩
      else d

end DecimalDigits

/-- The fraction `num / den` scaled by a power of ten. -/
def scaleByTen (num den : Nat) (e : Int) : Nat × Nat :=
  if e < 0 then (num * 10 ^ (-e).toNat, den) else (num, den * 10 ^ e.toNat)

namespace FloatFormat

variable (f : FloatFormat)

/-- How far the rounding interval of a positive number of units reaches below and above it, in
quarters of a unit. Below a power of two the values lie twice as close. -/
def halfGaps (n : Nat) : Nat × Nat :=
  let s := f.excessBits n
  let gap := 2 * 2 ^ s
  (if 0 < s ∧ n = 2 ^ (f.fractionBits + s) then gap / 2 else gap, gap)

/-- Whether the fraction `num / den` of units is within the rounding interval of `n` units. -/
def roundsTo (n num den : Nat) : Bool :=
  let (below, above) := f.halfGaps n
  let lo := (4 * n - below) * den
  let hi := (4 * n + above) * den
  if (n / 2 ^ f.excessBits n) % 2 = 0 then lo ≤ 4 * num ∧ 4 * num ≤ hi
  else lo < 4 * num ∧ 4 * num < hi

/-- The decimal exponent of the first digit of a positive number of units. -/
def decimalMagnitude (n : Nat) : Int :=
  let places : Nat := 400
  ((Nat.toDigits 10 (n * 10 ^ places / 2 ^ f.unitPlaces)).length : Int) - 1 - places

/-- The decimal with exponent `e` and this coefficient as a fraction of units. -/
def unitsOfDecimal (c : Nat) (e : Int) : Nat × Nat :=
  if e < 0 then (c * 2 ^ f.unitPlaces, 10 ^ (-e).toNat)
  else (c * 2 ^ f.unitPlaces * 10 ^ e.toNat, 1)

/-- The neighbour of `n` units on the grid of multiples of `10 ^ e` that reads back, the nearer one
if both do and the upper one if they are equally near. -/
def onGrid (n : Nat) (e : Int) : Option DecimalDigits :=
  let (num, den) := scaleByTen n (2 ^ f.unitPlaces) e
  let c := num / den
  let r := num % den
  let reads (c : Nat) : Bool := let (a, b) := f.unitsOfDecimal c e; f.roundsTo n a b
  let down := reads c
  let up := reads (c + 1)
  if down ∧ (¬up ∨ 2 * r < den) then some ⟨c, e⟩
  else if up then some ⟨c + 1, e⟩
  else none

/-- The shortest decimal that reads back as `n` units. Seventeen digits always suffice for the
formats of this library; the last resort is the value's integral part. -/
def shortest (n : Nat) : DecimalDigits :=
  if n = 0 then ⟨0, 0⟩
  else
    let magnitude := f.decimalMagnitude n
    match (List.range 18).findSome? fun (k : Nat) => f.onGrid n (magnitude - k) with
    | some d => d.trim
    | none => ⟨n / 2 ^ f.unitPlaces, 0⟩

end FloatFormat

end TableQuery
