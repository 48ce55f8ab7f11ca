import TableQuery.Number.Shortest

/-! # Texts of floating point values

Two layouts of the shortest digits. The *plain* one is positional at every magnitude and writes no
fraction for a whole number. The *literal* one keeps `.0` for a whole number and changes to an
exponent for very large and very small magnitudes. -/

namespace TableQuery

/-- How the digits of a finite value are laid out. -/
structure FloatLayout where
  /-- Magnitudes from this exponent on are written with an exponent. -/
  largeFrom : Option Int
  /-- Magnitudes below this exponent are written with an exponent. -/
  smallBelow : Option Int
  /-- Whether a whole number in positional notation ends in `.0`. -/
  wholeFraction : Bool

namespace FloatLayout

/-- Positional at every magnitude. -/
def plain : FloatLayout := ⟨none, none, false⟩

/-- Positional from one ten-thousandth to below ten to the sixteenth. -/
def literal : FloatLayout := ⟨some 16, some (-4), true⟩

/-- The digits with the point put in its place. -/
def positional (layout : FloatLayout) (d : DecimalDigits) : String :=
  let ds := d.digits
  if 0 ≤ d.exponent then
    String.ofList (ds ++ List.replicate d.exponent.toNat '0') ++
      (if layout.wholeFraction then ".0" else "")
  else
    let places := (-d.exponent).toNat
    let ds := List.replicate (places + 1 - ds.length) '0' ++ ds
    String.ofList (ds.take (ds.length - places)) ++ "." ++
      String.ofList (ds.drop (ds.length - places))

/-- One digit before the point, the others after it, then the exponent. -/
def scientific (d : DecimalDigits) : String :=
  let fraction := d.digits.drop 1
  String.ofList (d.digits.take 1) ++
    (if fraction.isEmpty then "" else "." ++ String.ofList fraction) ++ "e" ++ toString d.magnitude

/-- The text of a decimal, in the notation its magnitude calls for. -/
def write (layout : FloatLayout) (d : DecimalDigits) : String :=
  let large := layout.largeFrom.any (· ≤ d.magnitude)
  let small := layout.smallBelow.any (d.magnitude < ·)
  if d.coefficient ≠ 0 && (large || small) then scientific d else layout.positional d

end FloatLayout

namespace FloatType

/-- The format whose digits are written: those of a 16-bit value are its 32-bit digits. -/
def textFormat : FloatType → FloatFormat
  | float16 | float32 => float32.format
  | float64 => float64.format

/-- The text of a value in a format. -/
def textOf (f : FloatFormat) (layout : FloatLayout) : FloatValue → String
  | .nan => "NaN"
  | .infinity s => if s then "-inf" else "inf"
  | .finite s n => (if s then "-" else "") ++ layout.write (f.shortest n)

/-- The plain text of a value. -/
def display (t : FloatType) (v : t.Value) : String :=
  let x := match t with
    | float16 => float32.format.convert float16.format (float16.decode v)
    | t => t.decode v
  textOf t.textFormat .plain x

end FloatType

end TableQuery
